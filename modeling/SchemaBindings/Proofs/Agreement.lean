import SchemaBindings.Proofs.Handles
import SchemaBindings.Proofs.Twins

/-!
# Agreement of the native and the wire side

A native and a wire type of the same schema were put together side by side, so that the code of
both sides fits together: each object has a handle with accessors and a container class with as many
members, one for each accessor and with the wire type that the accessor expects.
-/

namespace SchemaBindings

open Code Mapping

/-! ## Types and properties -/

/-- A native and a wire type belong together, each with all that it consists of. -/
structure TypesAgree (runtime : Runtime) (title : String) (native : NativeType)
    (wire : WireType) : Prop where
  wire_eq : native.wire = wire.name
  output : native.output.Agree runtime title wire.output

/-- What has been gathered for an object on both sides belongs together. -/
structure GatheredAgrees (runtime : Runtime) (title stem : String) (life : AccessorGroup)
    (native : Native.Gathered) (wire : Wire.Gathered) : Prop where
  groups : ∃ groups, native.groups = life :: groups ∧
    List.Forall₂ (Access.Gives runtime (Names.qualified title stem)
      (runtime.wireContainer title stem)) groups wire.members
  output : native.output.Agree runtime title wire.output

/-- A part that belongs together on both sides is gathered on both sides. -/
theorem GatheredAgrees.add {runtime : Runtime} {title stem : String} {life : AccessorGroup}
    {soFar next : Twin.Gathered} (h : GatheredAgrees runtime title stem life soFar.1 soFar.2)
    {part : Twin.Part} (hpart : part.Of (TypesAgree runtime title))
    (hadd : part.add runtime (.ofStem runtime title stem) soFar = .ok next) :
    GatheredAgrees runtime title stem life next.1 next.2 := by
  obtain ⟨groups, hgroups, hgives⟩ := h.groups
  have htaken : ∀ group m, Access.Gives runtime (Names.qualified title stem)
      (runtime.wireContainer title stem) group m → ∃ groups', soFar.1.groups ++ [group] =
        life :: groups' ∧ List.Forall₂ (Access.Gives runtime (Names.qualified title stem)
          (runtime.wireContainer title stem)) groups' (soFar.2.members ++ [m]) :=
    fun group m hm ↦
      ⟨groups ++ [group], by rw [hgroups]; rfl, List.rel_append hgives (.cons hm .nil)⟩
  cases part with
  | whole native wire property options path =>
    obtain ⟨output, houtput, hadd⟩ := Failure.bind_eq_ok.1 hadd
    obtain ⟨output', houtput', hadd⟩ := Failure.bind_eq_ok.1 hadd
    cases hadd
    replace hpart : TypesAgree runtime title native wire := hpart
    have hgives := @Access.Gives.property runtime (Names.qualified title stem)
      (runtime.wireContainer title stem) ⟨property, wire.name⟩ native.name native.shape options
    rw [← hpart.wire_eq] at hgives
    rw [← hpart.wire_eq]
    exact ⟨htaken _ _ hgives, h.output.merge hpart.output.addsSame houtput houtput'⟩
  | elements element value output property path =>
    obtain ⟨result, hresult, hadd⟩ := Failure.bind_eq_ok.1 hadd
    obtain ⟨result', hresult', hadd⟩ := Failure.bind_eq_ok.1 hadd
    cases hadd
    obtain ⟨htypes, inner, hinner⟩ := hpart
    have hwire : runtime.wireArray value.name = runtime.wireArray element.valueType.wire :=
      congrArg runtime.wireArray htypes.wire_eq.symm
    exact ⟨htaken _ _ (.elements ⟨property, _⟩ element.valueType hwire),
      h.output.merge (htypes.output.addsSame_merge_empty hinner) hresult hresult'⟩
  | omitted notice =>
    cases hadd
    exact ⟨h.groups, h.output.addDiagnostic notice⟩

/-- Types that were put together side by side belong together. -/
theorem Twin.agrees {cx : Context} {document : Document} {native : NativeType} {wire : WireType}
    (h : Twin cx document native wire) : TypesAgree cx.runtime document.title native wire := by
  induction h with
  | primitive document type => exact ⟨by cases type <;> rfl, by cases type <;> exact .empty⟩
  | enumeration =>
    exact ⟨rfl, rfl, rfl, .of_none (fun hcode _ ↦ by cases hcode <;> rfl) fun _ ↦ rfl⟩
  | array _ habsorb habsorb' hadd ih =>
    have hparts := Output.Agree.empty.merge ih.output.addsSame habsorb habsorb'
    exact ⟨congrArg cx.runtime.wireArray ih.wire_eq, hparts.addHandle rfl hadd⟩
  | @object document stem label path parts gathered result result' _ _ habsorb hgathered hadd
      hinsert hwhole helements =>
    have hparts := Twin.Part.of_mem hwhole helements habsorb
    have hend : GatheredAgrees cx.runtime document.title stem
        (Access.lifecycle cx.runtime (Names.objectHandle document.title stem)
          (cx.runtime.wireContainer document.title stem)) gathered.1 gathered.2 :=
      Failure.foldlM_induction
        (P := fun soFar : Twin.Gathered ↦ GatheredAgrees _ _ _ _ soFar.1 soFar.2)
        ⟨⟨[], rfl, .nil⟩, .empty⟩ hgathered
        fun part hpart soFar next hsoFar hnext ↦ hsoFar.add (hparts part hpart) hnext
    obtain ⟨groups, hgroups, hgives⟩ := hend.groups
    rw [hgroups] at hadd
    exact ⟨rfl, hend.output.addObject hgives hadd hinsert⟩
  | map _ habsorb habsorb' hadd ih =>
    have hparts := Output.Agree.empty.merge ih.output.addsSame habsorb habsorb'
    exact ⟨rfl, hparts.addHandle rfl hadd⟩
  | external _ _ ih => exact ⟨ih.wire_eq, ih.output.external _ _⟩

/-! ## Whole mappings -/

section Map

variable {cx : Context}

/-- Whichever side runs first on a shared registry, with the same references on the chain: if it
ends without a collision of names, so does the other one or it ends in a collision, and both fail
in the same way or give types that belong together. -/
theorem native_and_wire_agree (hlibrary : cx.library.Named) {document : Document}
    (hdocument : document.Named) {node : Node} (hnode : node.Named) (request : Request)
    {session later : Session} (hchain : later.chain = session.chain) :
    (∀ native session', Native.Ends cx document node request session native session' →
      later.registry = session'.registry → ¬Collides native →
        (∃ wire later', Wire.Ends cx document node request later wire later') ∧
        ∀ wire later', Wire.Ends cx document node request later wire later' → ¬Collides wire →
          Same (TypesAgree cx.runtime document.title) native wire) ∧
    ∀ wire session', Wire.Ends cx document node request session wire session' →
      later.registry = session'.registry → ¬Collides wire →
        (∃ native later', Native.Ends cx document node request later native later') ∧
        ∀ native later', Native.Ends cx document node request later native later' →
          ¬Collides native → Same (TypesAgree cx.runtime document.title) native wire := by
  constructor
  · rintro native session' ⟨budget, hrun⟩ hregistry hnative
    have hfollows := (((map_matches_nativeFirst hlibrary budget).twins hdocument hnode
      request).nativeFirst rfl).imp fun _ _ htwin ↦ htwin.agrees
    obtain ⟨wire, later', hlater, hsame⟩ :=
      hfollows hrun hnative hchain (hregistry ▸ .refl later.registry)
    have hends : Wire.Ends cx document node request later wire later' := ⟨_, hlater⟩
    refine ⟨⟨wire, later', hends⟩, fun wire' later'' hends' hwire ↦ ?_⟩
    obtain ⟨rfl, -⟩ := hends.unique hends'
    exact hsame.resolve_left hwire
  · rintro wire session' ⟨budget, hrun⟩ hregistry hwire
    have hfollows := (((map_matches_wireFirst hlibrary budget).twins hdocument hnode
      request).wireFirst rfl).imp fun _ _ htwin ↦ htwin.agrees
    obtain ⟨native, later', hlater, hsame⟩ :=
      hfollows hrun hwire hchain (hregistry ▸ .refl later.registry)
    have hends : Native.Ends cx document node request later native later' := ⟨_, hlater⟩
    refine ⟨⟨native, later', hends⟩, fun native' later'' hends' hnative ↦ ?_⟩
    obtain ⟨rfl, -⟩ := hends.unique hends'
    exact (hsame.resolve_left hnative).symm

end Map

namespace DeviceInfo

def device : Document where
  uri := "Device"
  title := "Device"
  family := .schema
  definitionsRoot := "#/definitions"
  definitions := [("Name", .ofKind (.primitive .string none))]
  methods := []
  content := .object [("title", .string "Device"),
    ("definitions", .object [("Name", .object [("type", .string "string")])])]

def cx : Context := ⟨⟨[device]⟩, {}⟩

/-- A number, and a list in place whose elements are referred to. -/
def info : Node := .ofKind (.object (.mk (some [
  ("id", .ofKind (.primitive .integer none)),
  ("names", .ofKind (.array (.single (.ofKind (.reference "#/definitions/Name")))))])
  none none false))

def request : Request := ⟨"Info", "", "Device#/methods/0/result/schema"⟩

theorem named_device : device.Named := Document.named_of_texts (by decide)

theorem named_library : cx.library.Named := by
  intro document hdocument
  rw [List.mem_singleton.1 hdocument]
  exact named_device

theorem named_info : info.Named := by
  simp [Node.Named, info, Node.ofKind, Node.mentions, Kind.mentions, ObjectSchema.mentions,
    propertyMentions, Items.mentions]

theorem native_succeeds :
    (Native.map cx 4 device info request {}).any (fun run ↦ run.1.isOk) = true := by
  decide +kernel

/-- The wire side agrees with the native side that runs before it. -/
theorem wire_agrees : ∃ native session',
    Native.Ends cx device info request {} native session' ∧ ¬Collides native ∧
      ∀ wire later', Wire.Ends cx device info request { registry := session'.registry } wire
        later' → ¬Collides wire → Same (TypesAgree cx.runtime "Device") native wire := by
  obtain ⟨⟨native, session'⟩, hrun, hok⟩ := Option.any_eq_true _ _ |>.1 native_succeeds
  have hends : Native.Ends cx device info request {} native session' := ⟨4, hrun⟩
  have hnative : ¬Collides native := by
    cases native with
    | ok type => exact not_collides_ok type
    | error failure => cases hok
  have hchain : ({ registry := session'.registry } : Session).chain = ({} : Session).chain := rfl
  have hagree := native_and_wire_agree named_library named_device named_info request hchain
  exact ⟨native, session', hends, hnative, (hagree.1 native session' hends rfl hnative).2⟩

end DeviceInfo

end SchemaBindings
