import SchemaBindings.Proofs.Agreement
import SchemaBindings.Proofs.Dependencies

/-!
# Units in order

A unit takes in native and wire types and other units, one after another. Whatever the sequence is,
everything in it is defined before it is used. Enumerations are the exception: a container class
names them, and it is the native type of the same schema that brings them. A unit that takes in a
wire type only with the native type, mapped on the same registry, has them all.
-/

namespace SchemaBindings

open Code Mapping

/-- The types were given for the same schema on a shared registry, one side after the other and with
the same references on the chain. -/
inductive MappedTogether (cx : Context) (native : NativeType) (wire : WireType) : Prop
  | nativeFirst {document : Document} {node : Node} {request : Request}
      {session session' later later' : Session} (hdocument : document.Named) (hnode : node.Named)
      (hnative : Native.Ends cx document node request session (.ok native) session')
      (hchain : later.chain = session.chain)
      (hregistry : session'.registry.Extends later.registry)
      (hwire : Wire.Ends cx document node request later (.ok wire) later')
  | wireFirst {document : Document} {node : Node} {request : Request}
      {session session' later later' : Session} (hdocument : document.Named) (hnode : node.Named)
      (hwire : Wire.Ends cx document node request session (.ok wire) session')
      (hchain : later.chain = session.chain)
      (hregistry : session'.registry.Extends later.registry)
      (hnative : Native.Ends cx document node request later (.ok native) later')

section

variable {cx : Context}

/-- Types that were mapped together were put together side by side. -/
theorem MappedTogether.exists_twin (hlibrary : cx.library.Named) {native : NativeType}
    {wire : WireType} (h : MappedTogether cx native wire) :
    ∃ document, Twin cx document native wire := by
  cases h with
  | @nativeFirst document _ _ _ _ _ _ hdocument hnode hnative hchain hregistry hwire =>
    obtain ⟨budget, hrun⟩ := hnative
    obtain ⟨result, later', hlater, hsame⟩ :=
      (((map_matches_nativeFirst hlibrary budget).twins hdocument hnode _).nativeFirst rfl) hrun
        (not_collides_ok native) hchain hregistry
    obtain ⟨rfl, -⟩ := hwire.unique ⟨_, hlater⟩
    obtain ⟨htwin⟩ := hsame.resolve_left (not_collides_ok wire)
    exact ⟨document, htwin⟩
  | @wireFirst document _ _ _ _ _ _ hdocument hnode hwire hchain hregistry hnative =>
    obtain ⟨budget, hrun⟩ := hwire
    obtain ⟨result, later', hlater, hsame⟩ :=
      (((map_matches_wireFirst hlibrary budget).twins hdocument hnode _).wireFirst rfl) hrun
        (not_collides_ok wire) hchain hregistry
    obtain ⟨rfl, -⟩ := hnative.unique ⟨_, hlater⟩
    obtain ⟨htwin⟩ := hsame.resolve_left (not_collides_ok native)
    exact ⟨document, htwin⟩

namespace Output

/-- A unit that was built from nothing, with the native and wire types that went into it. -/
inductive Assembled (cx : Context) : List NativeType → List WireType → Output → Prop
  | empty : Assembled cx [] [] {}
  | native {natives : List NativeType} {wires : List WireType} {output result : Output}
      {document : Document} {node : Node} {request : Request} {session session' : Session}
      {type : NativeType} {path : String} (h : Assembled cx natives wires output)
      (htype : Native.Ends cx document node request session (.ok type) session')
      (habsorb : NativeType.absorb output type path = .ok result) :
      Assembled cx (type :: natives) wires result
  | wire {natives : List NativeType} {wires : List WireType} {output result : Output}
      {document : Document} {node : Node} {request : Request} {session session' : Session}
      {type : WireType} {path : String} (h : Assembled cx natives wires output)
      (htype : Wire.Ends cx document node request session (.ok type) session')
      (habsorb : WireType.absorb output type path = .ok result) :
      Assembled cx natives (type :: wires) result
  | merge {natives natives' : List NativeType} {wires wires' : List WireType}
      {output other result : Output} {path : String} (h : Assembled cx natives wires output)
      (hother : Assembled cx natives' wires' other)
      (hmerge : (output.merge other path).toExcept = .ok result) :
      Assembled cx (natives ++ natives') (wires ++ wires') result

variable {natives : List NativeType} {wires : List WireType} {output : Output}

/-- A unit has everything that the native types have that went into it. -/
theorem Assembled.grows (h : output.Assembled cx natives wires) :
    ∀ native ∈ natives, native.output.Grows output := by
  induction h with
  | empty => exact nofun
  | native _ _ habsorb ih =>
    intro native hnative
    obtain rfl | hold := List.mem_cons.1 hnative
    · exact (grows_merge habsorb).2
    · exact (ih native hold).trans (grows_merge habsorb).1
  | wire _ _ habsorb ih =>
    exact fun native hnative ↦ (ih native hnative).trans (grows_merge habsorb).1
  | merge _ _ hmerge ih ih' =>
    intro native hnative
    obtain hfirst | hsecond := List.mem_append.1 hnative
    · exact (ih native hfirst).trans (grows_merge hmerge).1
    · exact (ih' native hsecond).trans (grows_merge hmerge).2

/-- A unit is closed if the wire types are that went into it. -/
theorem Assembled.closedWith {isEnum : String → Prop} (h : output.Assembled cx natives wires)
    (hwires : ∀ wire ∈ wires, wire.output.ClosedWith cx.runtime isEnum) :
    output.ClosedWith cx.runtime isEnum := by
  induction h with
  | empty => exact closedWith_empty
  | native _ htype habsorb ih =>
    obtain ⟨budget, hrun⟩ := htype
    obtain ⟨_, hbuilt, -⟩ := Native.map_built cx budget hrun
    exact (ih hwires).merge (hbuilt.closedWith isEnum) habsorb
  | wire _ _ habsorb ih =>
    have hold := ih fun wire hwire ↦ hwires wire (.tail _ hwire)
    exact hold.merge (hwires _ (.head _)) habsorb
  | merge _ _ hmerge ih ih' =>
    exact (ih fun wire hwire ↦ hwires wire (List.mem_append_left _ hwire)).merge
      (ih' fun wire hwire ↦ hwires wire (List.mem_append_right _ hwire)) hmerge

theorem Assembled.wires_closed (h : output.Assembled cx natives wires) :
    ∀ wire ∈ wires, wire.output.ClosedWith cx.runtime fun _ ↦ True := by
  induction h with
  | empty => exact nofun
  | native _ _ _ ih => exact ih
  | wire _ htype _ ih =>
    intro wire hwire
    obtain rfl | hold := List.mem_cons.1 hwire
    · obtain ⟨budget, hrun⟩ := htype
      obtain ⟨_, hbuilt, -⟩ := Wire.map_built cx budget hrun
      exact hbuilt.closed.output
    · exact ih wire hold
  | merge _ _ _ ih ih' =>
    exact fun wire hwire ↦ (List.mem_append.1 hwire).elim (ih wire) (ih' wire)

/-- With the native type for each wire type, a unit has all enumerations that are used. -/
theorem Assembled.closed (h : output.Assembled cx natives wires) (hlibrary : cx.library.Named)
    (htogether : ∀ wire ∈ wires, ∃ native ∈ natives, MappedTogether cx native wire) :
    output.Closed cx.runtime := by
  refine h.closedWith fun wire hwire ↦ ?_
  obtain ⟨native, hnative, hmapped⟩ := htogether wire hwire
  obtain ⟨document, htwin⟩ := hmapped.exists_twin hlibrary
  exact htwin.closed.output.imp fun name hname ↦ (h.grows native hnative).subset .enums hname

end Output

end

/-- Every type is defined before it is used. A native type brings all that it consists of, and has
entries of its own unless a chain of references leads out of the document. A wire type brings all
container classes, its own among them, but no enumerations. A unit that types are taken into is in
order as they are, and it has all enumerations if a wire type comes only with the native type. -/
theorem types_are_defined_before_use (cx : Context) :
    (∀ (v : Visit) scope session type session',
      Native.Ends cx v.document v.node (v.request scope) session (.ok type) session' →
        type.output.Closed cx.runtime ∧
        (¬cx.library.Leaves v.document v.node → ∀ place ∈ Native.sections type.shape,
          type.name ∈ (type.output.get place).symbols)) ∧
    (∀ (v : Visit) scope session type session',
      Wire.Ends cx v.document v.node (v.request scope) session (.ok type) session' →
        type.Closed cx.runtime (fun _ ↦ True) v.document.title ∧
        ∀ w schema, Relation.ReflTransGen (Visit.MadeWithin cx.library) v w →
          w.declared? = some (.object schema) → ∃ stem, session'.registry.stem? w.path = some stem ∧
            Names.containerClass stem ∈ type.output.containers.symbols) ∧
    ∀ natives wires (output : Output), output.Assembled cx natives wires →
      output.ClosedWith cx.runtime (fun _ ↦ True) ∧
      (cx.library.Named → (∀ wire ∈ wires, ∃ native ∈ natives, MappedTogether cx native wire) →
        output.Closed cx.runtime) := by
  refine ⟨?_, ?_, ?_⟩
  · rintro v scope session type session' ⟨budget, hrun⟩
    obtain ⟨isExternal, hbuilt, hleaves⟩ := Native.map_built cx budget hrun
    refine ⟨hbuilt.closedWith _, fun hstays ↦ ?_⟩
    have hinternal : isExternal = false := Bool.eq_false_iff.2 fun htrue ↦ hstays (hleaves.1 htrue)
    rw [hinternal] at hbuilt
    exact hbuilt.has_entries
  · rintro v scope session type session' ⟨budget, hrun⟩
    obtain ⟨isExternal, hbuilt, -⟩ := Wire.map_built cx budget hrun
    refine ⟨hbuilt.closed, fun w schema hmade hdeclared ↦ ?_⟩
    obtain ⟨-, -, stem, hstem, hcode⟩ :=
      Wire.map_stands_of_made hmade hdeclared budget scope hrun trivial trivial
    exact ⟨stem, hstem, Output.isSome_find?_iff.1 (hcode .containers _ (.head _))⟩
  · intro natives wires output h
    exact ⟨h.closedWith h.wires_closed, h.closed⟩

namespace Lamp

def modes : Json := .object [("$id", .string "B"), ("title", .string "B"),
  ("definitions", .object [("Mode", .object [("type", .string "string"),
    ("enum", .array [.string "eco", .string "full"])])])]

def lamps : Json := .object [("$id", .string "A"), ("title", .string "A"),
  ("definitions", .object [("Bulb", .object [("type", .string "object"),
    ("properties", .object [("watt", .object [("type", .string "integer")])])])])]

theorem isSome_read_lamps : (Document.read lamps).toOption.isSome := by decide +kernel

theorem isSome_read_modes : (Document.read modes).toOption.isSome := by cbv

def home : Document := (Document.read lamps).toOption.get isSome_read_lamps

def other : Document := (Document.read modes).toOption.get isSome_read_modes

def cx : Context := ⟨⟨[home, other]⟩, {}⟩

/-- An enumeration, a list of objects and a type of another document. -/
def lamp : Node := .ofKind (.object (.mk (some [
  ("state", .ofKind (.enumeration ["on", "off"])),
  ("bulbs", .ofKind (.array (.single (.ofKind (.reference "#/definitions/Bulb"))))),
  ("mode", .ofKind (.reference "B#/definitions/Mode"))]) none none false))

def visit : Visit := ⟨home, lamp, "Lamp", "A#/methods/0/result/schema"⟩

def native? : Option (Except Failure NativeType × Session) :=
  Native.map cx 6 home lamp (visit.request "") {}

def wire? (registry : Registry) : Option (Except Failure WireType × Session) :=
  Wire.map cx 6 home lamp (visit.request "") { registry := registry }

theorem named_library : cx.library.Named := by
  intro document hdocument
  obtain rfl | hdocument := List.mem_cons.1 hdocument
  · exact Document.named_of_texts (by decide +kernel)
  · obtain rfl := List.mem_singleton.1 hdocument
    exact Document.named_of_texts (by decide +kernel)

theorem named_lamp : lamp.Named := by
  simp [Node.Named, lamp, Node.ofKind, Node.mentions, Kind.mentions, ObjectSchema.mentions,
    propertyMentions, Items.mentions]

theorem native_succeeds : native?.any (fun run ↦ run.1.toOption.any fun native ↦
    native.shape == .object && (wire? run.2.registry).any fun run' ↦ run'.1.toOption.any fun wire ↦
      (NativeType.absorb {} native visit.path).toOption.any fun first ↦
        (WireType.absorb first wire visit.path).toOption.any fun output ↦
          (output.enums.symbols, output.declarations.symbols, output.containers.symbols,
            output.externals) == (["A_Lamp_State"], ["A_BulbHandle", "A_LampHandle"],
              ["JsonData_Bulb", "JsonData_Lamp"], ["B"])) = true := by
  decide +kernel

/-- The unit of a lamp is in order, and it has what the lamp consists of. -/
theorem in_order : ∃ native wire output, Output.Assembled cx [native] [wire] output ∧
    native.output.Closed cx.runtime ∧ native.name ∈ native.output.declarations.symbols ∧
    wire.output.ClosedWith cx.runtime (fun _ ↦ True) ∧
    (∃ stem, Names.containerClass stem ∈ wire.output.containers.symbols) ∧
    output.Closed cx.runtime ∧
    (output.enums.symbols, output.declarations.symbols, output.containers.symbols,
      output.externals) = (["A_Lamp_State"], ["A_BulbHandle", "A_LampHandle"],
        ["JsonData_Bulb", "JsonData_Lamp"], ["B"]) := by
  obtain ⟨⟨_, between⟩, hnative, hrest⟩ := (Option.any_eq_true _ _).1 native_succeeds
  obtain ⟨native, rfl, hrest⟩ := Failure.any_toOption.1 hrest
  obtain ⟨hshape, hrest⟩ := (Bool.and_eq_true _ _).mp hrest
  obtain ⟨wire, last, hwire, hrest⟩ := exists_ok_of_any hrest
  obtain ⟨first, hfirst, hrest⟩ := Failure.any_toOption.1 hrest
  obtain ⟨output, houtput, hsymbols⟩ := Failure.any_toOption.1 hrest
  have hends : Native.Ends cx visit.document visit.node (visit.request "") {} (.ok native)
      between :=
    ⟨6, hnative⟩
  have hends' : Wire.Ends cx visit.document visit.node (visit.request "")
      { registry := between.registry } (.ok wire) last :=
    ⟨6, hwire⟩
  have hassembled : Output.Assembled cx [native] [wire] output :=
    (Output.Assembled.empty.native hends hfirst).wire hends' houtput
  have hchain : ({ registry := between.registry } : Session).chain = ({} : Session).chain := rfl
  have htogether : MappedTogether cx native wire :=
    .nativeFirst (named_library home (.head _)) named_lamp hends hchain (.refl _) hends'
  obtain ⟨hnatives, hwires, hunits⟩ := types_are_defined_before_use cx
  obtain ⟨hclosed, hentries⟩ := hnatives visit "" _ native _ hends
  obtain ⟨hclosed', hclasses⟩ := hwires visit "" _ wire _ hends'
  have hdeclared : Section.declarations ∈ Native.sections native.shape := by
    rw [beq_iff_eq.1 hshape]
    exact .head _
  obtain ⟨stem, -, hclass⟩ := hclasses visit _ .refl rfl
  refine ⟨native, wire, output, hassembled, hclosed,
    hentries (Library.not_leaves rfl) .declarations hdeclared, hclosed'.output, ⟨stem, hclass⟩, ?_,
    beq_iff_eq.1 hsymbols⟩
  refine (hunits _ _ output hassembled).2 named_library fun other hother ↦ ?_
  rw [List.mem_singleton.1 hother]
  exact ⟨native, .head _, htogether⟩

end Lamp

/-! ## Enumerations that are missing -/

section

variable {runtime : Runtime}

/-- A wire type of the runtime ends in no bracket. -/
theorem WireBase.getLast?_name_ne (runtime : Runtime) {base : WireBase} (h : base.title? = none) :
    (base.name runtime).toList.getLast? ≠ some '>' := by
  have hword : ∀ before word : String, word.toList.getLast? ≠ some '>' → word ≠ "" →
      (before ++ word).toList.getLast? ≠ some '>' := by
    intro before word hlast hne
    have hsome : word.toList ≠ [] := fun hnil ↦ hne (String.toList_eq_nil_iff.1 hnil)
    rwa [String.toList_append, List.getLast?_append_of_ne_nil _ hsome]
  cases base with
  | primitive type minimum =>
    cases type with
    | string => exact hword _ "::JSON::String" (by decide) (by decide)
    | number => exact hword _ "Float" (by decide) (by decide)
    | boolean => exact hword _ "Boolean" (by decide) (by decide)
    | integer =>
      change (runtime.jsonType (if isUnsigned minimum then "DecUInt32" else "DecSInt32")
        ).toList.getLast? ≠ some '>'
      split
      · exact hword _ "DecUInt32" (by decide) (by decide)
      · exact hword _ "DecSInt32" (by decide) (by decide)
  | map => exact hword _ "VariantContainer" (by decide) (by decide)
  | enumeration | container => cases h

theorem getLast?_append_bracket (text : String) : (text ++ ">").toList.getLast? = some '>' := by
  rw [String.toList_append]
  exact List.getLast?_concat

theorem Runtime.wireArray_ne_wireEnum (element name : String) :
    runtime.wireArray element ≠ runtime.wireEnum name := by
  intro h
  unfold Runtime.wireArray Runtime.wireEnum Runtime.jsonType at h
  simp only [String.append_assoc, String.append_right_inj] at h
  have hfirst := congrArg (fun text : String ↦ text.toList.head?) h
  simp at hfirst

theorem Runtime.wireArray_injective {element element' : String}
    (h : runtime.wireArray element = runtime.wireArray element') : element = element' := by
  unfold Runtime.wireArray at h
  exact (String.append_right_inj _).1 ((String.append_left_inj _).1 h)

/-- With nothing defined and no other documents, only types of the runtime stand. -/
theorem WireBase.title?_eq_none {base : WireBase} (h : base.Stands [] (· ∈ ([] : List String)) []) :
    base.title? = none := by
  cases base with
  | primitive | map => rfl
  | enumeration | container => cases h <;> contradiction

theorem not_wireStands_wireEnum (name : String) :
    ¬WireStands runtime [] (· ∈ ([] : List String)) [] (runtime.wireEnum name) := by
  rintro ⟨base, hcarries, hstands⟩
  have hplain := WireBase.title?_eq_none hstands
  generalize htype : runtime.wireEnum name = type at hcarries
  cases hcarries with
  | base =>
    refine WireBase.getLast?_name_ne runtime hplain ?_
    rw [← htype]
    exact getLast?_append_bracket _
  | array => exact Runtime.wireArray_ne_wireEnum _ _ htype.symm

theorem WireStands.of_wireArray {element : String}
    (h : WireStands runtime [] (· ∈ ([] : List String)) [] (runtime.wireArray element)) :
    WireStands runtime [] (· ∈ ([] : List String)) [] element := by
  obtain ⟨base, hcarries, hstands⟩ := h
  have hplain := WireBase.title?_eq_none hstands
  generalize htype : runtime.wireArray element = type at hcarries
  cases hcarries with
  | base =>
    refine absurd ?_ (WireBase.getLast?_name_ne runtime hplain)
    rw [← htype]
    exact getLast?_append_bracket _
  | array hinner =>
    cases Runtime.wireArray_injective htype
    exact ⟨base, hinner, hstands⟩

end

namespace LoneWire

/-- The only container class of an output, with its members, if nothing else is defined or referred
to. -/
def onlyMembers? (output : Output) : Option (List Member) :=
  match output.containers.entries, output.enums.symbols, output.externals with
  | [(_, code)], [], [] =>
    match code.pieces with
    | [.container c] => some c.members
    | _ => none
  | _, _, _ => none

theorem members_stand {runtime : Runtime} {output : Output} {members : List Member}
    (h : onlyMembers? output = some members) (hclosed : output.Closed runtime) :
    ∀ m ∈ members, WireStands runtime [] (· ∈ ([] : List String)) [] m.type := by
  unfold onlyMembers? at h
  split at h
  · rename_i symbol code hentries henums hexternals
    split at h
    · rename_i c hpieces
      cases h
      obtain ⟨c', -, hpieces', hmembers⟩ := hclosed .containers [] symbol code [] hentries
      rw [hpieces] at hpieces'
      cases hpieces'
      rw [henums, hexternals] at hmembers
      exact hmembers
    · cases h
  · cases h

def content : Json := .object [("$id", .string "A"), ("title", .string "A"),
  ("definitions", .object [])]

theorem isSome_read : (Document.read content).toOption.isSome := by cbv

def home : Document := (Document.read content).toOption.get isSome_read

def cx : Context := ⟨⟨[home]⟩, {}⟩

def request : Request := ⟨"x", "", "A#/x"⟩

def object (name : String) (node : Node) : Node :=
  .ofKind (.object (.mk (some [(name, node)]) none none false))

def modes : Node := .ofKind (.enumeration ["a"])

/-- An enumeration as a property. -/
def plain : Node := object "m" modes

/-- A list of enumerations in place, as a property without a name. -/
def unnamed : Node := object "" (.mk (some "T") none (.array (.single modes)))

def wire? (node : Node) (registry : Registry) : Option (Except Failure WireType × Session) :=
  Wire.map cx 4 home node request { registry := registry }

theorem run_plain : (wire? plain {}).any (fun run ↦ run.1.toOption.any fun wire ↦
    (WireType.absorb {} wire request.path).toOption.any fun output ↦
      onlyMembers? output == some [⟨"m", cx.runtime.wireEnum "A_X_M"⟩]) = true := by
  decide +kernel

theorem run_unnamed : (Native.map cx 4 home unnamed request {}).any (fun run ↦
    run.1.toOption.any fun native ↦
      (wire? unnamed run.2.registry).any fun run' ↦ run'.1.toOption.any fun wire ↦
        (NativeType.absorb {} native request.path).toOption.any fun first ↦
          (WireType.absorb first wire request.path).toOption.any fun output ↦
            onlyMembers? output == some [⟨"",
              cx.runtime.wireArray (cx.runtime.wireEnum "A_X_T")⟩]) = true := by
  decide +kernel

/-- A wire type that is taken in by itself names an enumeration that the unit has not, and so does
one with a property without a name even if the native type is taken in first. -/
theorem enumerations_missing :
    (∃ wire output last, Wire.Ends cx home plain request {} (.ok wire) last ∧
      Output.Assembled cx [] [wire] output ∧
      onlyMembers? output = some [⟨"m", "WPEFramework::Core::JSON::EnumType<A_X_M>"⟩] ∧
      ¬output.Closed cx.runtime) ∧
    ∃ native wire output between last,
      Native.Ends cx home unnamed request {} (.ok native) between ∧
      Wire.Ends cx home unnamed request { registry := between.registry } (.ok wire) last ∧
      Output.Assembled cx [native] [wire] output ∧ ¬output.Closed cx.runtime := by
  constructor
  · obtain ⟨wire, last, hwire, hrest⟩ := exists_ok_of_any run_plain
    obtain ⟨output, houtput, hmembers⟩ := Failure.any_toOption.1 hrest
    have hends : Wire.Ends cx home plain request {} (.ok wire) last := ⟨4, hwire⟩
    refine ⟨wire, output, last, hends, Output.Assembled.empty.wire hends houtput,
      beq_iff_eq.1 hmembers, fun hclosed ↦ ?_⟩
    exact not_wireStands_wireEnum _
      (members_stand (beq_iff_eq.1 hmembers) hclosed _ List.mem_cons_self)
  · obtain ⟨⟨_, between⟩, hnative, hrest⟩ := (Option.any_eq_true _ _).1 run_unnamed
    obtain ⟨native, rfl, hrest⟩ := Failure.any_toOption.1 hrest
    obtain ⟨wire, last, hwire, hrest⟩ := exists_ok_of_any hrest
    obtain ⟨first, hfirst, hrest⟩ := Failure.any_toOption.1 hrest
    obtain ⟨output, houtput, hmembers⟩ := Failure.any_toOption.1 hrest
    have hends : Native.Ends cx home unnamed request {} (.ok native) between := ⟨4, hnative⟩
    have hends' : Wire.Ends cx home unnamed request { registry := between.registry } (.ok wire)
        last :=
      ⟨4, hwire⟩
    refine ⟨native, wire, output, between, last, hends, hends',
      (Output.Assembled.empty.native hends hfirst).wire hends' houtput, fun hclosed ↦ ?_⟩
    exact not_wireStands_wireEnum _
      (members_stand (beq_iff_eq.1 hmembers) hclosed _ List.mem_cons_self).of_wireArray

end LoneWire

end SchemaBindings
