/-
# Working on many items

The items of a list are worked on one after the other or at the same time.  The results are the
same, and in the order of the items.
-/

namespace LikelihoodRatio.Tasks

/-- The results of `f` for the items of a list, at the same time if `parallel` is set. -/
def map {β γ : Type} (parallel : Bool) (f : β → γ) (items : List β) : List γ :=
  if parallel then (items.map fun x => Task.spawn fun _ => f x).map Task.get else items.map f

/-- Whether items are worked on at the same time cannot be told from the results. -/
@[simp]
theorem map_eq {β γ : Type} (parallel : Bool) (f : β → γ) (items : List β) :
    map parallel f items = items.map f := by
  cases parallel with
  | false => rfl
  | true => simp only [map, if_true, List.map_map]; rfl

end LikelihoodRatio.Tasks
