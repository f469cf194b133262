import OpeningTimes.Expression.Meaning

/-!
What an expression contributes: no item twice, and the first of some kind where it stands first.
-/

namespace OpeningTimes

section EraseDups

variable {Element Image : Type} [BEq Element]

/-- Removing repetitions goes on behind the first element with the elements that differ from it. -/
theorem eraseDups_induction {motive : List Element → Prop} (nil : motive [])
    (cons : ∀ first rest, motive (rest.filter fun other => !other == first) →
      motive (first :: rest))
    (list : List Element) : motive list := by
  match list with
  | [] => exact nil
  | first :: rest => exact cons first rest (eraseDups_induction nil cons _)
termination_by list.length
decreasing_by exact Nat.lt_succ_of_le (List.length_filter_le _ _)

variable [LawfulBEq Element]

/-- Without its repetitions a list has no element twice. -/
theorem nodup_eraseDups (list : List Element) : list.eraseDups.Nodup := by
  induction list using eraseDups_induction with
  | nil => exact List.nodup_nil
  | cons first rest ih =>
    rw [List.eraseDups_cons]
    refine List.nodup_cons.mpr ⟨fun again => ?_, ih⟩
    -- What equals the first element was removed behind it.
    have different := (List.mem_filter.mp (List.mem_eraseDups.mp again)).2
    rw [beq_self_eq_true] at different
    cases different

/-- A list without repetitions stays as it is when they are removed. -/
theorem eraseDups_eq_self {list : List Element} (once : list.Nodup) : list.eraseDups = list := by
  induction list with
  | nil => rfl
  | cons first rest ih =>
    obtain ⟨different, once⟩ := List.nodup_cons.mp once
    -- Nothing behind the first element equals it.
    have kept : rest.filter (fun other => !other == first) = rest := by
      refine List.filter_eq_self.mpr fun other listed => ?_
      have apart : other ≠ first := fun same => different (same ▸ listed)
      simp [apart]
    rw [List.eraseDups_cons, kept, ih once]

/-- The first element with an image is found among the elements without repetitions too. -/
theorem findSome?_eraseDups (image : Element → Option Image) (list : List Element) :
    list.eraseDups.findSome? image = list.findSome? image := by
  induction list using eraseDups_induction with
  | nil => rfl
  | cons first rest ih =>
    rw [List.eraseDups_cons, List.findSome?_cons, List.findSome?_cons, ih]
    cases found : image first with
    | some value => rfl
    | none =>
      -- The removed elements are equal to the first one and have no image either.
      clear ih
      dsimp only
      induction rest with
      | nil => rfl
      | cons other others ih =>
        cases same : other == first with
        | true => simpa [same, eq_of_beq same, found] using ih
        | false =>
          -- An element that stays is looked at on both sides.
          rw [List.filter_cons_of_pos (by simp [same]), List.findSome?_cons,
            List.findSome?_cons, ih]

end EraseDups

/-- No expression contributes an item twice. -/
theorem Expression.nodup_items (expression : Expression) : expression.items.Nodup :=
  nodup_eraseDups _

/-- A group as an entry of its own. -/
def DayGroup.entry (group : DayGroup) : Entry :=
  .days group.days (some group.clause)

/-- Entries with days and clauses of their own are as many groups. -/
theorem DayGroup.ofEntries_map_entry (current : List NamedDay) (groups : List DayGroup) :
    ofEntries current (groups.map entry) = groups := by
  induction groups generalizing current with
  | nil => rfl
  | cons group rest ih =>
    -- The days of an entry are only the current ones for the entries behind it.
    rw [List.map_cons]
    unfold entry ofEntries
    rw [Option.getD_some]
    exact congrArg _ (ih group.days)

/-- An expression of groups within one season or none contributes the items of these groups. -/
theorem Expression.items_ofGroups (years : Option Years) (season : Option Season)
    {groups : List DayGroup} (filled : groups ≠ []) :
    items ⟨years, season.toList, groups.map DayGroup.entry⟩ =
      (groups.flatMap (DayGroup.items season years)).eraseDups := by
  have entries : groups.map DayGroup.entry ≠ [] := by simpa using filled
  have choices : seasonChoices ⟨years, season.toList, groups.map DayGroup.entry⟩ = [season] := by
    cases season <;> rfl
  -- There is one choice of a season, and no days are left to other entries.
  unfold items
  rw [choices, Expression.groups, if_neg entries, DayGroup.ofEntries_map_entry,
    List.flatMap_singleton]

end OpeningTimes
