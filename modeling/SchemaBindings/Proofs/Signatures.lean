import SchemaBindings.Api.Notification
import SchemaBindings.Code.Fragments
import SchemaBindings.Text.Pieces

/-!
# Signatures in code

Which functions a piece of header code declares and a piece of code defines, and that their texts
hold the signatures. Code of functions starts with a comment, the type of a callback with a
definition, and code that only its file sees as such, so that texts of different kinds differ. The
code under a symbol is linked if it has a body for each prototype, or a callback in the header at
most and only such code in the implementation.
-/

namespace SchemaBindings

open Code

/-! ## Texts -/

/-- The text has the part in it. -/
def Text.Holds (text part : String) : Prop := ∃ before after, text = before ++ part ++ after

theorem Text.Holds.trans {text middle part : String} (h : Text.Holds text middle)
    (h' : Text.Holds middle part) : Text.Holds text part := by
  obtain ⟨before, after, rfl⟩ := h
  obtain ⟨before', after', rfl⟩ := h'
  exact ⟨before ++ before', after' ++ after, by simp only [String.append_assoc]⟩

theorem Text.Holds.append_left {text part : String} (h : Text.Holds text part) (after : String) :
    Text.Holds (text ++ after) part :=
  .trans ⟨"", after, by rw [String.empty_append]⟩ h

theorem Text.Holds.append_right {text part : String} (h : Text.Holds text part)
    (before : String) : Text.Holds (before ++ text) part :=
  .trans ⟨before, "", String.append_empty.symm⟩ h

theorem Text.holds_join {parts : List String} {part : String} (h : part ∈ parts) :
    Text.Holds (String.join parts) part := by
  obtain ⟨before, after, rfl⟩ := List.append_of_mem h
  refine ⟨String.join before, String.join after, ?_⟩
  simp [String.join_append, String.join_cons, String.append_assoc]

theorem Text.occursChars_iff {part text : List Char} :
    Text.occursChars part text = true ↔ part <:+: text := by
  induction text with
  | nil => simp [Text.occursChars, List.isEmpty_iff]
  | cons c rest ih =>
    rw [Text.occursChars, Bool.or_eq_true, ih, List.isPrefixOf_iff_prefix, List.infix_cons_iff]

theorem Text.occurs_iff {part text : String} :
    Text.occurs part text = true ↔ Text.Holds text part := by
  unfold Text.occurs
  rw [Text.occursChars_iff]
  constructor
  · rintro ⟨before, after, h⟩
    refine ⟨String.ofList before, String.ofList after, String.toList_injective ?_⟩
    simp [← h]
  · rintro ⟨before, after, rfl⟩
    exact ⟨before.toList, after.toList, by simp⟩

namespace Code

/-- A body starts with its brace. -/
theorem Routine.holds_head (r : Routine) :
    Text.Holds r.render (r.signature.render ++ "\n\x7b\n") := by
  refine ⟨"", Code.render (indent r.body ++ line "\x7d"), ?_⟩
  have hopen : Code.render (line "\x7b") = "\x7b\n" := by decide
  have hbraced : Code.render (braced r.body) =
      "\x7b\n" ++ Code.render (indent r.body ++ line "\x7d") := by
    rw [← hopen]
    unfold Code.render braced
    rw [List.append_assoc, List.map_append, String.join_append]
  unfold Routine.render
  rw [hbraced, String.empty_append]
  simp only [String.append_assoc]
  rfl

namespace Piece

/-- Signatures of the functions that a piece of header code declares. -/
def prototypes : Piece → List Signature
  | declared groups => groups.flatMap fun g ↦ g.routines.map (·.signature)
  | prototype s => [s]
  | _ => []

/-- Signatures of the functions that a piece of code defines, but for those that only its file
sees. -/
def bodies : Piece → List Signature
  | defined groups => groups.flatMap fun g ↦ g.routines.map (·.signature)
  | routine r => [r.signature]
  | _ => []

theorem holds_prototype {piece : Piece} {s : Signature} (h : s ∈ piece.prototypes) :
    Text.Holds piece.render (s.render ++ ";\n") := by
  cases piece with
  | declared groups =>
    obtain ⟨g, hg, hs⟩ := List.mem_flatMap.1 h
    obtain ⟨r, hr, rfl⟩ := List.mem_map.1 hs
    have hroutine : r.signature.prototype ∈ g.routines.map (·.signature.prototype) :=
      List.mem_map.2 ⟨r, hr, rfl⟩
    have hgroup : Text.Holds g.declaration r.signature.prototype :=
      .trans ⟨AccessorGroup.handleType g.subject, "", (String.append_empty).symm⟩
        (Text.holds_join hroutine)
    exact (Text.holds_join (List.mem_map.2 ⟨g, hg, rfl⟩)).trans hgroup
  | prototype =>
    cases List.mem_singleton.1 h
    exact ⟨"", "", (String.append_empty.trans String.empty_append).symm⟩
  | _ => cases h

theorem holds_body {piece : Piece} {s : Signature} (h : s ∈ piece.bodies) :
    Text.Holds piece.render (s.render ++ "\n\x7b\n") := by
  cases piece with
  | defined groups =>
    obtain ⟨g, hg, hs⟩ := List.mem_flatMap.1 h
    obtain ⟨r, hr, rfl⟩ := List.mem_map.1 hs
    have hgroup : Text.Holds g.definition r.render :=
      Text.holds_join (List.mem_map.2 ⟨r, hr, rfl⟩)
    exact ((Text.holds_join (List.mem_map.2 ⟨g, hg, rfl⟩)).trans hgroup).trans r.holds_head
  | routine r =>
    cases List.mem_singleton.1 h
    exact r.holds_head
  | _ => cases h

end Piece

namespace Fragment

/-- Signatures of the functions that header code declares. -/
def prototypes (code : Fragment) : List Signature := code.pieces.flatMap Piece.prototypes

/-- Signatures of the functions that code defines for other files to see. -/
def bodies (code : Fragment) : List Signature := code.pieces.flatMap Piece.bodies

variable {code declared defined : Fragment} {s : Signature}

theorem holds_piece {piece : Piece} (h : piece ∈ code.pieces) :
    Text.Holds code.text piece.render := by
  rw [code.text_eq]
  exact Text.holds_join (List.mem_map.2 ⟨piece, h, rfl⟩)

theorem holds_prototype (h : s ∈ code.prototypes) :
    Text.Holds code.text (s.render ++ ";\n") := by
  obtain ⟨piece, hpiece, hs⟩ := List.mem_flatMap.1 h
  exact (holds_piece hpiece).trans (Piece.holds_prototype hs)

theorem holds_body (h : s ∈ code.bodies) :
    Text.Holds code.text (s.render ++ "\n\x7b\n") := by
  obtain ⟨piece, hpiece, hs⟩ := List.mem_flatMap.1 h
  exact (holds_piece hpiece).trans (Piece.holds_body hs)

end Fragment

/-! ## Kinds of code -/

namespace Fragment

variable {code : Fragment}

/-- The code of a function of a method: pieces below the method's comment. -/
def IsBelowComment (pieces : List Piece) (code : Fragment) : Prop :=
  ∃ title description, code.pieces = .comment (Code.comment title description) :: pieces

def IsCallback (code : Fragment) : Prop := ∃ callback, code.pieces = [.callback callback]

/-- Code that only its file sees. -/
def IsStatic (code : Fragment) : Prop :=
  ∃ piece rest, code.pieces = [piece] ∧ piece.bodies = [] ∧ piece.render = "static " ++ rest

theorem head?_text {piece : Piece} {rest : List Piece} {opening tail : String} {c : Char}
    (h : code.pieces = piece :: rest) (hrender : piece.render = opening ++ tail)
    (hopening : opening.toList.head? = some c) : code.text.toList.head? = some c := by
  rw [code.text_eq, h, renderPieces, List.map_cons, String.join_cons, hrender,
    String.append_assoc, String.toList_append, List.head?_append, hopening]
  rfl

theorem IsBelowComment.head? {pieces : List Piece} (h : code.IsBelowComment pieces) :
    code.text.toList.head? = some '/' := by
  obtain ⟨title, description, hpieces⟩ := h
  have hcomment : ∃ tail, Code.comment title description = "/* " ++ tail := by
    unfold Code.comment
    split <;> simp only [String.append_assoc] <;> exact ⟨_, rfl⟩
  obtain ⟨tail, hcomment⟩ := hcomment
  have hrender : (Piece.comment (Code.comment title description)).render =
      "/* " ++ (tail ++ "\n") := by
    change Code.comment title description ++ "\n" = _
    rw [hcomment, String.append_assoc]
  exact head?_text hpieces hrender (by decide)

theorem IsCallback.head? (h : code.IsCallback) : code.text.toList.head? = some 't' := by
  obtain ⟨callback, hpieces⟩ := h
  have hrender : (Piece.callback callback).render = "typedef void (*" ++
      (callback.name ++ (")(" ++ (parameterList callback.parameters ++ ");\n"))) := by
    simp only [← String.append_assoc]
    rfl
  exact head?_text hpieces hrender (by decide)

theorem IsStatic.head? (h : code.IsStatic) : code.text.toList.head? = some 's' := by
  obtain ⟨piece, rest, hpieces, -, hrender⟩ := h
  exact head?_text hpieces hrender (by decide)

theorem isStatic_trampoline (t : Trampoline) : (ofPieces [.trampoline t]).IsStatic :=
  ⟨.trampoline t, _, rfl, rfl, rfl⟩

theorem isStatic_hidden (r : Routine) : (ofPieces [.hidden r]).IsStatic :=
  ⟨.hidden r, _, rfl, rfl, rfl⟩

theorem isStatic_dispatcher (name callee : String) :
    (ofPieces [.dispatcher name callee]).IsStatic := by
  refine ⟨.dispatcher name callee, "void " ++ name ++ "(const void*)\n" ++
    Code.render (braced (line (callee ++ "();"))), rfl, rfl, ?_⟩
  simp only [← String.append_assoc]
  rfl

end Fragment

/-- The code of a type in the header and in the implementation. -/
def TypeCode (declared defined : Fragment) : Prop :=
  ∃ groups, declared.pieces = [.declared groups] ∧ defined.pieces = [.defined groups]

def EnumerationCode (declared defined : Fragment) : Prop :=
  ∃ e, declared.pieces = [.enumeration e] ∧ defined.pieces = [.conversion e]

/-- The code of functions under one symbol, with a body for each prototype. -/
def FunctionCode (declared defined : Option Fragment) : Prop :=
  ∃ prototype body, ∃ routines : List Routine, declared = some prototype ∧ defined = some body ∧
    prototype.IsBelowComment ((routines.map Routine.signature).map .prototype) ∧
    body.IsBelowComment (routines.map .routine)

/-- What stands in the header under a symbol belongs to what stands in the implementation. -/
def Linked (declared defined : Option Fragment) : Prop :=
  FunctionCode declared defined ∨
    (∀ code ∈ declared, code.IsCallback) ∧ ∀ code ∈ defined, code.IsStatic

/-- Functions are declared under the symbol, and may still have no bodies. -/
def Awaits (signatures : List Signature) (declared defined : Option Fragment) : Prop :=
  FunctionCode declared defined ∨
    (∃ prototype, declared = some prototype ∧
      prototype.IsBelowComment (signatures.map .prototype)) ∧ ∀ code ∈ defined, code.IsStatic

section

variable {declared defined : Option Fragment} {code : Fragment} {signatures : List Signature}

theorem linked_none : Linked none none := .inr ⟨nofun, nofun⟩

theorem forall_mem_or {P : Fragment → Prop} {first : Option Fragment}
    (h : ∀ found ∈ first, P found) (hcode : P code) : ∀ found ∈ first.or (some code), P found := by
  cases first with
  | none =>
    rintro _ ⟨⟩
    exact hcode
  | some found => exact h

/-- There is no other code under a symbol than that which comes in. -/
theorem not_mem_of_head? {c c' : Char} {first : Option Fragment}
    (hsame : ∀ existing ∈ first, existing.text = code.text)
    (hcode : code.text.toList.head? = some c) {existing : Fragment} (hmem : existing ∈ first)
    (hexisting : existing.text.toList.head? = some c') : c' = c := by
  rw [hsame existing hmem, hcode] at hexisting
  exact (Option.some.inj hexisting).symm

theorem Linked.addCallback (h : Linked declared defined) (hcode : code.IsCallback)
    (hsame : ∀ existing ∈ declared, existing.text = code.text) :
    Linked (declared.or (some code)) defined := by
  obtain ⟨prototype, body, routines, rfl, -, hprototype, -⟩ | ⟨hcallback, hstatic⟩ := h
  · cases not_mem_of_head? hsame hcode.head? rfl hprototype.head?
  · exact .inr ⟨forall_mem_or hcallback hcode, hstatic⟩

theorem Linked.addStatic (h : Linked declared defined) (hcode : code.IsStatic)
    (hsame : ∀ existing ∈ defined, existing.text = code.text) :
    Linked declared (defined.or (some code)) := by
  obtain ⟨prototype, body, routines, -, rfl, -, hbody⟩ | ⟨hcallback, hstatic⟩ := h
  · cases not_mem_of_head? hsame hcode.head? rfl hbody.head?
  · exact .inr ⟨hcallback, forall_mem_or hstatic hcode⟩

theorem Linked.addPrototypes (h : Linked declared defined)
    (hcode : code.IsBelowComment (signatures.map .prototype))
    (hsame : ∀ existing ∈ declared, existing.text = code.text) :
    Awaits signatures (declared.or (some code)) defined := by
  obtain hfunction | ⟨hcallback, hstatic⟩ := h
  · obtain ⟨prototype, body, routines, rfl, hrest⟩ := hfunction
    exact .inl ⟨prototype, body, routines, rfl, hrest⟩
  · cases declared with
    | none => exact .inr ⟨⟨code, rfl, hcode⟩, hstatic⟩
    | some existing =>
      cases not_mem_of_head? hsame hcode.head? rfl (hcallback existing rfl).head?

theorem Awaits.addStatic (h : Awaits signatures declared defined) (hcode : code.IsStatic)
    (hsame : ∀ existing ∈ defined, existing.text = code.text) :
    Awaits signatures declared (defined.or (some code)) := by
  obtain ⟨prototype, body, routines, -, rfl, -, hbody⟩ | ⟨hprototype, hstatic⟩ := h
  · cases not_mem_of_head? hsame hcode.head? rfl hbody.head?
  · exact .inr ⟨hprototype, forall_mem_or hstatic hcode⟩

theorem Awaits.addBodies {routines : List Routine}
    (h : Awaits (routines.map Routine.signature) declared defined)
    (hcode : code.IsBelowComment (routines.map .routine))
    (hsame : ∀ existing ∈ defined, existing.text = code.text) :
    Linked declared (defined.or (some code)) := by
  obtain hfunction | ⟨⟨prototype, rfl, hprototype⟩, hstatic⟩ := h
  · obtain ⟨prototype, body, routines, hdeclared, rfl, hrest⟩ := hfunction
    exact .inl ⟨prototype, body, routines, hdeclared, rfl, hrest⟩
  · cases defined with
    | none =>
      exact .inl ⟨prototype, code, routines, rfl, rfl, hprototype, hcode⟩
    | some existing =>
      cases not_mem_of_head? hsame hcode.head? rfl (hstatic existing rfl).head?

/-- Of two outputs the first keeps what it has under a symbol, in both files. -/
theorem Linked.or {declared' defined' : Option Fragment} (h : Linked declared defined)
    (h' : Linked declared' defined')
    (hdeclared : ∀ code ∈ declared, ∀ code' ∈ declared', code.text = code'.text)
    (hdefined : ∀ code ∈ defined, ∀ code' ∈ defined', code.text = code'.text) :
    Linked (declared.or declared') (defined.or defined') := by
  obtain ⟨prototype, body, routines, rfl, rfl, hrest⟩ | ⟨hcallback, hstatic⟩ := h
  · exact .inl ⟨prototype, body, routines, rfl, rfl, hrest⟩
  obtain ⟨prototype, body, routines, rfl, rfl, hprototype, hbody⟩ | ⟨hcallback', hstatic'⟩ := h'
  · cases declared with
    | some code =>
      cases not_mem_of_head? (fun _ hmem ↦ hdeclared _ hmem prototype rfl) hprototype.head? rfl
        (hcallback code rfl).head?
    | none =>
      cases defined with
      | some code =>
        cases not_mem_of_head? (fun _ hmem ↦ hdefined _ hmem body rfl) hbody.head? rfl
          (hstatic code rfl).head?
      | none => exact .inl ⟨prototype, body, routines, rfl, rfl, hprototype, hbody⟩
  · refine .inr ⟨?_, ?_⟩
    · cases declared with
      | none => exact hcallback'
      | some code => exact hcallback
    · cases defined with
      | none => exact hstatic'
      | some code => exact hstatic

end

end Code

end SchemaBindings
