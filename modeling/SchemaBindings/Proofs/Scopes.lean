import SchemaBindings.Code.Lines

/-!
# Variables in scope

Static functions as statements at a depth, of which is known what they declare, assign, branch on
and call. A name stands for the variable of the innermost block that has declared it so far, and a
variable is gone behind its block. A function says by this which variables it assigns in a branch
and passes in a call, whatever other variables are called.
-/

namespace SchemaBindings.Code

structure Variable where
  /-- Depth of the block that the variable belongs to. -/
  depth : Nat
  type : String
  name : String
  deriving DecidableEq, Repr

/-- What a statement does, as far as variables go. -/
inductive Act where
  /-- Declares a variable. What stands behind its name is given as it is. -/
  | declare (type name initial : String)
  | assign (target value : String)
  /-- Changes what a pointer points to, and no variable. -/
  | store (pointer value : String)
  /-- Opens the branch for this label of an iterator, behind another branch if it is not first. The
  label stands between the quotes as it is. -/
  | branch (iterator label : String) (isFirst : Bool)
  /-- Passes variables and, as the last argument, a value. -/
  | call (callee : String) (passed : List String) (value : String)
  | other (text : String)
  deriving DecidableEq, Repr

def Act.text : Act → String
  | declare type name initial => type ++ " " ++ name ++ initial ++ ";"
  | assign target value => target ++ " = " ++ value ++ ";"
  | store pointer value => "*" ++ pointer ++ " = " ++ value ++ ";"
  | branch iterator label isFirst =>
    (if isFirst then "" else "\x7d else ") ++
      ("if (strcmp(" ++ iterator ++ ".Label(), \"" ++ label ++ "\") == 0) \x7b")
  | call callee passed value =>
    callee ++ "(" ++ String.intercalate ", " (passed ++ [value]) ++ ");"
  | other text => text

/-- Opens no branch and does not call. -/
def Act.isPlain : Act → Bool
  | branch _ _ _ | call _ _ _ => false
  | declare _ _ _ | assign _ _ | store _ _ | other _ => true

structure Statement where
  depth : Nat
  act : Act
  deriving DecidableEq, Repr

/-- Acts one after another at one depth. -/
def level (depth : Nat) (acts : List Act) : List Statement := acts.map (⟨depth, ·⟩)

@[simp]
theorem level_nil (depth : Nat) : level depth [] = [] := rfl

@[simp]
theorem level_cons (depth : Nat) (act : Act) (acts : List Act) :
    level depth (act :: acts) = ⟨depth, act⟩ :: level depth acts := rfl

@[simp]
theorem level_append (depth : Nat) (acts acts' : List Act) :
    level depth (acts ++ acts') = level depth acts ++ level depth acts' :=
  List.map_append

namespace Statement

/-- A line that is indented by four blanks for each depth, unless it is blank. -/
def text (s : Statement) : String :=
  if s.act.text = "" then "\n"
  else String.ofList (List.replicate (4 * s.depth) ' ') ++ s.act.text ++ "\n"

def declared (s : Statement) : Option Variable :=
  match s.act with
  | .declare type name _ => some ⟨s.depth, type, name⟩
  | _ => none

end Statement

/-- The variables in scope, the innermost and latest first. -/
abbrev Scope := List Variable

namespace Scope

/-- What a name stands for. -/
def find (name : String) (scope : Scope) : Option Variable := scope.find? (·.name = name)

/-- What is left where a statement stands at this depth: the blocks further inside are closed. -/
def upTo (depth : Nat) (scope : Scope) : Scope := scope.filter (·.depth ≤ depth)

/-- The scope behind a statement. -/
def after (scope : Scope) (s : Statement) : Scope := s.declared.toList ++ scope.upTo s.depth

def behind (scope : Scope) (body : List Statement) : Scope := body.foldl after scope

end Scope

/-- What is read from statements one by one, each in the scope that it stands in. -/
def collect {α : Type} (read : Scope → Act → List α) : Scope → List Statement → List α
  | _, [] => []
  | scope, s :: rest => read (scope.upTo s.depth) s.act ++ collect read (scope.after s) rest

/-- A value and the variable that it is assigned to, if there is one of this name. -/
def assignment (scope : Scope) : Act → List (Option Variable × String)
  | .assign target value => [(scope.find target, value)]
  | _ => []

structure Passing where
  callee : Option Variable
  passed : List (Option Variable)
  value : String
  deriving DecidableEq, Repr

def passing (scope : Scope) : Act → List Passing
  | .call callee passed value => [⟨scope.find callee, passed.map scope.find, value⟩]
  | _ => []

/-- What is assigned where an iterator stands at this label. -/
structure Branch where
  label : String
  assigned : List (Option Variable × String)
  deriving DecidableEq, Repr

def Act.label? (iterator : String) : Act → Option String
  | .branch iterator' label _ => if iterator' = iterator then some label else none
  | _ => none

/-- The branches on an iterator. To a branch belongs what stands deeper right behind its head. -/
def branchesOn (iterator : String) : Scope → List Statement → List Branch
  | _, [] => []
  | scope, s :: rest =>
    let inside := rest.takeWhile (s.depth < ·.depth)
    (s.act.label? iterator).toList.map (⟨·, collect assignment (scope.after s) inside⟩) ++
      branchesOn iterator (scope.after s) rest

/-- A static function without a result. -/
structure Procedure where
  name : String
  parameters : List Variable
  body : List Statement
  deriving DecidableEq, Repr

namespace Procedure

def text (p : Procedure) : String :=
  "static void " ++ p.name ++ "(" ++
    String.intercalate ", " (p.parameters.map fun v ↦ v.type ++ " " ++ v.name) ++ ")\n\x7b\n" ++
    String.join (p.body.map Statement.text) ++ "\x7d\n"

/-- The parameters are in scope from the start. -/
def scope (p : Procedure) : Scope := p.parameters.reverse

/-- All variables of the outermost block, which the parameters belong to. -/
def outermost (p : Procedure) : List Variable :=
  (p.parameters ++ p.body.filterMap Statement.declared).filter (·.depth = 1)

def calls (p : Procedure) : List Passing := collect passing p.scope p.body

def branches (iterator : String) (p : Procedure) : List Branch :=
  branchesOn iterator p.scope p.body

end Procedure

/-! ## Scopes behind blocks -/

namespace Scope

variable {scope inner : Scope} {depth depth' : Nat} {name : String} {s : Statement}
  {body : List Statement} {v : Variable}

theorem behind_append (scope : Scope) (body body' : List Statement) :
    scope.behind (body ++ body') = (scope.behind body).behind body' :=
  List.foldl_append

theorem upTo_eq_self (h : ∀ v ∈ scope, v.depth ≤ depth) : scope.upTo depth = scope :=
  List.filter_eq_self.2 fun v hv ↦ decide_eq_true (h v hv)

theorem upTo_upTo (h : depth ≤ depth') : (scope.upTo depth').upTo depth = scope.upTo depth := by
  unfold upTo
  rw [List.filter_filter]
  refine List.filter_congr fun v _ ↦ ?_
  rw [← Bool.decide_and, decide_eq_decide]
  exact and_iff_left_of_imp fun hv ↦ Nat.le_trans hv h

theorem depth_of_mem_declared (h : v ∈ s.declared.toList) : v.depth = s.depth := by
  unfold Statement.declared at h
  split at h
  · cases List.mem_singleton.1 h
    rfl
  · cases h

theorem depth_of_mem_level {acts : List Act} (h : s ∈ level depth acts) : s.depth = depth := by
  obtain ⟨act, -, rfl⟩ := List.mem_map.1 h
  rfl

/-- What is declared inside of a block is gone behind it. -/
theorem upTo_after (h : depth < s.depth) : (scope.after s).upTo depth = scope.upTo depth := by
  have hdeclared : upTo depth s.declared.toList = [] :=
    List.filter_eq_nil_iff.2 fun v hv hdepth ↦ by
      rw [depth_of_mem_declared hv, decide_eq_true_eq] at hdepth
      omega
  calc (scope.after s).upTo depth
    _ = upTo depth s.declared.toList ++ (scope.upTo s.depth).upTo depth := List.filter_append _ _
    _ = scope.upTo depth := by rw [hdeclared, List.nil_append, upTo_upTo (Nat.le_of_lt h)]

theorem upTo_behind (h : ∀ s ∈ body, depth < s.depth) :
    (scope.behind body).upTo depth = scope.upTo depth := by
  induction body generalizing scope with
  | nil => rfl
  | cons s rest ih =>
    rw [List.forall_mem_cons] at h
    exact (ih h.2).trans (upTo_after h.1)

/-- What is declared inside of a block is no variable around it. -/
theorem declared_filter (h : ∀ s ∈ body, depth < s.depth) :
    (body.filterMap Statement.declared).filter (·.depth = depth) = [] := by
  refine List.filter_eq_nil_iff.2 fun v hv ↦ ?_
  obtain ⟨s, hs, hdeclared⟩ := List.mem_filterMap.1 hv
  have hdepth : v.depth = s.depth := depth_of_mem_declared (Option.mem_toList.2 hdeclared)
  have hlt : depth < s.depth := h s hs
  simp only [decide_eq_true_eq]
  omega

/-- Statements at one depth add what they declare, the last of it first. -/
theorem behind_level (acts : List Act) (h : ∀ v ∈ scope, v.depth ≤ depth) :
    scope.behind (level depth acts) =
      ((level depth acts).filterMap Statement.declared).reverse ++ scope := by
  induction acts generalizing scope with
  | nil => rfl
  | cons act rest ih =>
    let s : Statement := ⟨depth, act⟩
    have hafter : scope.after s = s.declared.toList ++ scope := by
      unfold after
      rw [upTo_eq_self h]
    have hdepth : ∀ v ∈ scope.after s, v.depth ≤ depth := fun v hv ↦ by
      rw [hafter] at hv
      obtain hv | hv := List.mem_append.1 hv
      · exact Nat.le_of_eq (depth_of_mem_declared hv)
      · exact h v hv
    calc scope.behind (level depth (act :: rest))
      _ = (scope.after s).behind (level depth rest) := rfl
      _ = ((level depth rest).filterMap Statement.declared).reverse ++
          (s.declared.toList ++ scope) := by rw [ih hdepth, hafter]
      _ = ((level depth (act :: rest)).filterMap Statement.declared).reverse ++ scope := by
        change _ = ((s :: level depth rest).filterMap Statement.declared).reverse ++ scope
        cases hs : s.declared <;> simp [hs]

/-! ## Names in scopes -/

theorem find_append (h : ∀ v ∈ inner, v.name ≠ name) :
    find name (inner ++ scope) = find name scope := by
  have hinner : inner.find? (·.name = name) = none :=
    List.find?_eq_none.2 fun v hv ↦ by simpa using h v hv
  unfold find
  rw [List.find?_append, hinner, Option.none_or]

theorem find_eq_some (hdistinct : (scope.map (·.name)).Nodup) (h : v ∈ scope) :
    find v.name scope = some v := by
  induction scope with
  | nil => cases h
  | cons w rest ih =>
    rw [List.map_cons, List.nodup_cons] at hdistinct
    obtain rfl | hrest := List.mem_cons.1 h
    · exact List.find?_cons_of_pos (by simp)
    · have hname : w.name ≠ v.name := fun hsame ↦
        hdistinct.1 (hsame ▸ List.mem_map_of_mem hrest)
      exact (List.find?_cons_of_neg (by simpa using hname)).trans (ih hdistinct.2 hrest)

/-- Under distinct keys, one value has the key of a given one. -/
theorem filter_eq_singleton {α : Type} {key : α → String} {xs : List α} {x : α}
    (hdistinct : (xs.map key).Nodup) (h : x ∈ xs) : xs.filter (key · = key x) = [x] := by
  induction xs with
  | nil => cases h
  | cons y rest ih =>
    rw [List.map_cons, List.nodup_cons] at hdistinct
    obtain rfl | hrest := List.mem_cons.1 h
    · have hnone : rest.filter (key · = key x) = [] :=
        List.filter_eq_nil_iff.2 fun z hz hsame ↦
          hdistinct.1 (of_decide_eq_true hsame ▸ List.mem_map_of_mem hz)
      rw [List.filter_cons_of_pos (by simp), hnone]
    · have hother : ¬key y = key x := fun hsame ↦
        hdistinct.1 (hsame ▸ List.mem_map_of_mem hrest)
      rw [List.filter_cons_of_neg (by simpa using hother), ih hdistinct.2 hrest]

end Scope

/-! ## Reading a function part by part -/

variable {scope : Scope} {depth : Nat} {s : Statement} {body rest : List Statement}
  {iterator label : String}

namespace Act

variable {act : Act}

theorem label?_of_isPlain (h : act.isPlain = true) : act.label? iterator = none := by
  cases act with
  | branch => cases h
  | _ => rfl

theorem passing_of_isPlain (h : act.isPlain = true) : passing scope act = [] := by
  cases act with
  | call => cases h
  | _ => rfl

end Act

theorem collect_append {α : Type} (read : Scope → Act → List α) (scope : Scope)
    (body rest : List Statement) :
    collect read scope (body ++ rest) =
      collect read scope body ++ collect read (scope.behind body) rest := by
  induction body generalizing scope with
  | nil => rfl
  | cons s body ih =>
    rw [List.cons_append, collect, collect, ih, List.append_assoc]
    rfl

theorem collect_eq_nil {α : Type} {read : Scope → Act → List α}
    (h : ∀ s ∈ body, ∀ scope, read scope s.act = []) : collect read scope body = [] := by
  induction body generalizing scope with
  | nil => rfl
  | cons s body ih =>
    rw [List.forall_mem_cons] at h
    rw [collect, h.1, ih h.2, List.nil_append]

theorem branchesOn_append (h : ∀ s ∈ body, s.act.label? iterator = none) :
    branchesOn iterator scope (body ++ rest) = branchesOn iterator (scope.behind body) rest := by
  induction body generalizing scope with
  | nil => rfl
  | cons s body ih =>
    rw [List.forall_mem_cons] at h
    rw [List.cons_append, branchesOn, h.1, ih h.2]
    rfl

/-- A branch ends where the depth of its head is reached again. -/
theorem branchesOn_branch (isFirst : Bool) (hdeep : ∀ s ∈ body, depth < s.depth)
    (hinside : ∀ s ∈ body, s.act.label? iterator = none)
    (hrest : ∀ s ∈ rest.head?, s.depth ≤ depth) :
    branchesOn iterator scope (⟨depth, .branch iterator label isFirst⟩ :: (body ++ rest)) =
      ⟨label, collect assignment (scope.upTo depth) body⟩ ::
        branchesOn iterator ((scope.upTo depth).behind body) rest := by
  have hend : rest.takeWhile (depth < ·.depth) = [] := by
    cases rest with
    | nil => rfl
    | cons s rest =>
      have hs : ¬depth < s.depth := Nat.not_lt.2 (hrest s rfl)
      exact List.takeWhile_cons_of_neg (by simpa using hs)
  have hwhole : (body ++ rest).takeWhile (depth < ·.depth) = body := by
    rw [List.takeWhile_append_of_pos fun s hs ↦ decide_eq_true (hdeep s hs), hend,
      List.append_nil]
  rw [branchesOn, hwhole, branchesOn_append hinside]
  simp [Act.label?, Scope.after, Statement.declared]

end SchemaBindings.Code
