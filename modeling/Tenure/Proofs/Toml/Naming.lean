import Mathlib.Data.List.Nodup
import Tenure.Toml.Parser

/-!
# What a document names

A document names nothing twice (`names_nodup_of_parse`): an assignment to a
name that is taken is refused, and a heading finds the table that is there
already. So it makes no difference whether the first or the last item of a name
is taken for what it stands for.

Only the names of the document itself are looked at here, and not those
within its tables.
-/

namespace Tenure.Toml

namespace Members

variable {ms : Members} {name : String} {item : Item}

/-- The names in order. -/
def names (ms : Members) : List String := ms.map Prod.fst

@[simp] theorem get?_nil : get? [] name = none := rfl

theorem get?_cons (other : String) :
    get? ((other, item) :: ms) name = if name = other then some item else ms.get? name := by
  unfold get?
  rw [List.lookup_cons]
  by_cases h : name = other
  · rw [if_pos h, beq_iff_eq.2 h]
  · rw [if_neg h, beq_eq_false_iff_ne.2 h]

theorem get?_isSome_iff : (ms.get? name).isSome = true ↔ name ∈ ms.names := by
  induction ms with
  | nil => simp [names]
  | cons m ms ih =>
    obtain ⟨other, item⟩ := m
    rw [get?_cons]
    by_cases h : name = other <;> simp_all [names]

/-! ## Building a document -/

theorem names_put_nodup (h : ms.names.Nodup) : (ms.put name item).names.Nodup := by
  unfold put
  split
  · unfold names
    rw [List.map_map]
    -- the names stay as they are
    refine Eq.mpr (congrArg List.Nodup (List.map_congr_left fun m _ => ?_)) h
    show (if m.1 = name then (m.1, item) else (m.1, m.2)).1 = m.1
    split <;> rfl
  · rename_i hfresh
    rw [get?_isSome_iff] at hfresh
    show (List.map Prod.fst (ms ++ [(name, item)])).Nodup
    rw [List.map_append]
    exact h.append (List.nodup_singleton name) (by simpa using hfresh)

theorem names_erase_nodup (h : ms.names.Nodup) : (ms.erase name).names.Nodup :=
  h.sublist (List.filter_sublist.map Prod.fst)

/-- A name is put into the document, whatever happens in the table behind it. -/
theorem names_nodup_of_map_put {inner : Option Members} {wrap : Members → Item} {ms' : Members}
    (h : ms.names.Nodup) (hput : inner.map (fun m => ms.put name (wrap m)) = some ms') :
    ms'.names.Nodup := by
  obtain ⟨m, -, rfl⟩ := Option.map_eq_some_iff.1 hput
  exact names_put_nodup h

theorem names_assign_nodup {path : List String} {ms' : Members} (h : ms.names.Nodup)
    (hassign : assign path name item ms = some ms') : ms'.names.Nodup := by
  cases path with
  | nil =>
    simp only [assign] at hassign
    split at hassign
    · contradiction
    · obtain rfl := Option.some.inj hassign
      exact names_put_nodup h
  | cons step path =>
    simp only [assign] at hassign
    split at hassign
    · exact names_nodup_of_map_put h hassign
    · exact names_nodup_of_map_put h hassign
    · split at hassign
      · contradiction
      · exact names_nodup_of_map_put h hassign
    · split at hassign
      · contradiction
      · exact names_nodup_of_map_put h hassign
    · contradiction

theorem names_assignAll_nodup {assignments : List (List String × String × Item)} {ms' : Members}
    (h : ms.names.Nodup) (hassign : assignAll ms assignments = some ms') : ms'.names.Nodup := by
  induction assignments generalizing ms with
  | nil =>
    obtain rfl := Option.some.inj hassign
    exact h
  | cons a rest ih =>
    obtain ⟨m, hm, hrest⟩ := Option.bind_eq_some_iff.1 hassign
    exact ih (names_assign_nodup h hm) hrest

theorem names_within_nodup {change : Members → Option Members} {path : List String}
    {ms' : Members} (hchange : ∀ ⦃m m'⦄, m.names.Nodup → change m = some m' → m'.names.Nodup)
    (h : ms.names.Nodup) (hwithin : within change path ms = some ms') : ms'.names.Nodup := by
  cases path with
  | nil => exact hchange h hwithin
  | cons step path =>
    simp only [within] at hwithin
    split at hwithin
    · exact names_nodup_of_map_put h hwithin
    · split at hwithin
      · contradiction
      · exact names_nodup_of_map_put h hwithin
    · exact names_nodup_of_map_put h hwithin
    · contradiction

theorem names_addSection_nodup {s : Section} {ms' : Members} (h : ms.names.Nodup)
    (hadd : addSection ms s = some ms') : ms'.names.Nodup := by
  refine names_within_nodup (fun m m' hm hsection => ?_) h hadd
  split at hsection
  · exact names_nodup_of_map_put hm hsection
  · exact names_nodup_of_map_put hm hsection
  · exact names_nodup_of_map_put hm hsection
  · exact names_nodup_of_map_put (names_erase_nodup hm) hsection
  · contradiction

theorem names_ofSections_nodup {top : List (List String × String × Item)}
    {sections : List Section} (h : ofSections top sections = some ms) : ms.names.Nodup := by
  obtain ⟨first, hfirst, hrest⟩ := Option.bind_eq_some_iff.1 h
  have hnodup : first.names.Nodup :=
    names_assignAll_nodup (show (names []).Nodup from List.nodup_nil) hfirst
  clear hfirst h
  induction sections generalizing first with
  | nil =>
    obtain rfl := Option.some.inj hrest
    exact hnodup
  | cons s sections ih =>
    rw [List.foldlM_cons] at hrest
    obtain ⟨next, hnext, hrest⟩ := Option.bind_eq_some_iff.1 hrest
    exact ih next hrest (names_addSection_nodup hnodup hnext)

end Members

/-- **A document names nothing twice.** -/
theorem names_nodup_of_parse {text : String} {ms : Members} (h : parse text = some ms) :
    ms.names.Nodup := by
  obtain ⟨ls, -, hsections⟩ := Option.bind_eq_some_iff.1 h
  exact Members.names_ofSections_nodup hsections

end Tenure.Toml
