/-
**Distinct items.**

Of the items of a list that are the same only the first one is kept. What is kept comes in the same
order as before.

* `eraseDups_cons_eq`: the first item is kept, and of the others those that differ from it;
* `nodup_eraseDups`: no item is kept twice.
-/

namespace Handbook

variable {Item : Type} [BEq Item] [LawfulBEq Item]

/-- What is left out can be left out before or after repeated items are. -/
theorem eraseDups_filter (keep : Item → Bool) (items : List Item) :
    (items.filter keep).eraseDups = items.eraseDups.filter keep := by
  induction items generalizing keep with
  | nil => rfl
  | cons item others step =>
    rw [List.eraseDups_cons, step]
    by_cases kept : keep item = true
    · rw [List.filter_cons_of_pos kept, List.filter_cons_of_pos kept, List.eraseDups_cons,
        List.filter_filter, List.filter_filter, step]
      simp only [Bool.and_comm]
    · rw [List.filter_cons_of_neg kept, List.filter_cons_of_neg kept, step, List.filter_filter]
      refine List.filter_congr fun other _ => ?_
      by_cases same : other = item
      · simp [same, kept]
      · simp [same]

theorem eraseDups_cons_eq (item : Item) (others : List Item) :
    (item :: others).eraseDups = item :: others.eraseDups.filter fun other => !other == item := by
  rw [List.eraseDups_cons, eraseDups_filter]

theorem nodup_eraseDups (items : List Item) : items.eraseDups.Nodup := by
  induction items with
  | nil => exact List.nodup_nil
  | cons item others step =>
    rw [eraseDups_cons_eq]
    refine List.nodup_cons.mpr ⟨fun member => ?_, step.filter _⟩
    simpa using (List.mem_filter.mp member).2

end Handbook
