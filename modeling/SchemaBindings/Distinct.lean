/-!
# Lists without repetition

Elements in the order in which they were first added.
-/

namespace SchemaBindings

variable {α : Type} [DecidableEq α]

/-- The list with a new element at its end, unless it is there already. -/
def addNew (seen : List α) (x : α) : List α :=
  if x ∈ seen then seen else seen ++ [x]

def addAllNew (seen others : List α) : List α :=
  others.foldl addNew seen

theorem mem_addNew {seen : List α} {x y : α} : y ∈ addNew seen x ↔ y ∈ seen ∨ y = x := by
  unfold addNew
  split
  · exact ⟨Or.inl, fun h ↦ h.elim id fun hy ↦ hy ▸ ‹x ∈ seen›⟩
  · simp

@[simp]
theorem mem_addAllNew {seen others : List α} {y : α} :
    y ∈ addAllNew seen others ↔ y ∈ seen ∨ y ∈ others := by
  induction others generalizing seen with
  | nil => simp [addAllNew]
  | cons x rest ih =>
    have hstep : addAllNew seen (x :: rest) = addAllNew (addNew seen x) rest := rfl
    rw [hstep, ih, mem_addNew, List.mem_cons, or_assoc]

theorem nodup_addNew {seen : List α} (h : seen.Nodup) (x : α) : (addNew seen x).Nodup := by
  unfold addNew
  split
  · exact h
  · refine List.nodup_append.2 ⟨h, List.pairwise_singleton _ x, ?_⟩
    rintro y hy _ hx rfl
    exact ‹x ∉ seen› (List.mem_singleton.1 hx ▸ hy)

theorem nodup_addAllNew {seen : List α} (h : seen.Nodup) (others : List α) :
    (addAllNew seen others).Nodup := by
  induction others generalizing seen with
  | nil => exact h
  | cons x rest ih => exact ih (nodup_addNew h x)

end SchemaBindings
