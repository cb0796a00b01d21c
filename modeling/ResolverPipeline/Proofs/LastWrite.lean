import Mathlib.Data.List.Nodup
import Mathlib.Data.List.Perm.Subperm
import ResolverPipeline.Proofs.FieldMap

namespace ResolverPipeline

theorem exchangeField_fst (key value : String) (es : List (String × String)) :
    (exchangeField key value es).1 = es.lookup key := by
  induction es with
  | nil => rfl
  | cons e rest ih =>
    obtain ⟨k, v⟩ := e
    rw [exchangeField, lookup_cons_eq_ite]
    split
    · rename_i h
      rw [if_pos h.symm]
    · rename_i h
      rw [if_neg (Ne.symm h)]
      exact ih

namespace FieldMap

theorem exchange_eq (m : FieldMap) (key value : String) :
    m.exchange key value = (m.get? key, m.insert key value) :=
  Prod.ext (exchangeField_fst key value m.entries)
    (FieldMap.ext (exchangeField_snd key value m.entries))

inductive Edit
  | insert (key value : String)
  | merge (fields : FieldMap)
  | replace (pairs : List (String × String))

def edit (m : FieldMap) : Edit → FieldMap
  | .insert key value => (m.exchange key value).2
  | .merge fields => m.merge fields
  | .replace pairs => ofList pairs

def afterEdits (edits : List Edit) : FieldMap := edits.foldl edit empty

def writes (sofar : List (String × String)) : Edit → List (String × String)
  | .insert key value => sofar ++ [(key, value)]
  | .merge fields => sofar ++ fields.entries
  | .replace pairs => pairs

def written (edits : List Edit) : List (String × String) := edits.foldl writes []

/-- That a map is what came of the writes: every key at its first write, with the value of its last. -/
structure Records (m : FieldMap) (pairs : List (String × String)) : Prop where
  keys : m.keys = (pairs.map Prod.fst).eraseDups
  get? : ∀ key, m.get? key = pairs.reverse.lookup key

theorem records_empty : empty.Records [] := ⟨rfl, fun _ => rfl⟩

theorem records_ofList (pairs : List (String × String)) : (ofList pairs).Records pairs :=
  ⟨keys_ofList pairs, get?_ofList pairs⟩

theorem Records.insertMany {m : FieldMap} {pairs : List (String × String)} (h : m.Records pairs)
    (more : List (String × String)) : (m.insertMany more).Records (pairs ++ more) := by
  constructor
  · rw [keys_insertMany h.keys, List.map_append]
  · intro key
    rw [get?_insertMany, h.get?, List.reverse_append, List.lookup_append]

theorem Records.edit {m : FieldMap} {pairs : List (String × String)} (h : m.Records pairs)
    (e : Edit) : (m.edit e).Records (writes pairs e) := by
  cases e with
  | insert key value =>
    rw [FieldMap.edit, exchange_eq]
    exact h.insertMany [(key, value)]
  | merge fields => exact h.insertMany fields.entries
  | replace pairs => exact records_ofList pairs

theorem Records.edits {m : FieldMap} {pairs : List (String × String)} (h : m.Records pairs)
    (edits : List Edit) : (edits.foldl FieldMap.edit m).Records (edits.foldl writes pairs) := by
  induction edits generalizing m pairs with
  | nil => exact h
  | cons e rest ih => exact ih (h.edit e)

theorem records_self (m : FieldMap) : m.Records m.entries := by
  simpa using records_ofList m.entries

theorem entries_eq_filterMap (m : FieldMap) :
    m.entries = m.keys.filterMap fun key => (m.get? key).map (Prod.mk key) := by
  have hself : ∀ e ∈ m.entries, (m.get? e.1).map (Prod.mk e.1) = some e := by
    intro e he
    rw [get?_eq_some.2 he, Option.map_some]
  rw [keys, List.filterMap_map]
  exact (List.filterMap_some.symm.trans (List.filterMap_congr hself).symm)

theorem Records.unique {a b : FieldMap} {pairs : List (String × String)} (ha : a.Records pairs)
    (hb : b.Records pairs) : a = b := by
  have hkeys : a.keys = b.keys := ha.keys.trans hb.keys.symm
  have hget : a.get? = b.get? := funext fun key => (ha.get? key).trans (hb.get? key).symm
  apply FieldMap.ext
  rw [entries_eq_filterMap, entries_eq_filterMap, hkeys, hget]

theorem Records.merge {a b : FieldMap} {p q : List (String × String)} (ha : a.Records p)
    (hb : b.Records q) : (a.merge b).Records (p ++ q) := by
  have hmerge := ha.insertMany b.entries
  constructor
  · calc
      (a.merge b).keys = (p.map Prod.fst ++ b.keys).eraseDups := by
        have hkeys := hmerge.keys
        rwa [List.map_append] at hkeys
      _ = ((p ++ q).map Prod.fst).eraseDups := by
        rw [hb.keys, eraseDups_append_eraseDups, List.map_append]
  · intro key
    calc
      (a.merge b).get? key = (b.entries.reverse.lookup key).or (p.reverse.lookup key) := by
        rw [FieldMap.merge, hmerge.get?, List.reverse_append, List.lookup_append]
      _ = (p ++ q).reverse.lookup key := by
        rw [← b.records_self.get?, hb.get?, List.reverse_append, List.lookup_append]

theorem Records.again {m : FieldMap} {pairs : List (String × String)} (h : m.Records pairs) :
    m.Records (pairs ++ pairs) := by
  constructor
  · rw [h.keys, List.map_append, eraseDups_append_of_subset (List.Subset.refl _)]
  · intro key
    rw [h.get?, List.reverse_append, List.lookup_append, Option.or_self]

theorem merge_assoc (a b c : FieldMap) : (a.merge b).merge c = a.merge (b.merge c) := by
  have hleft := (a.records_self.merge b.records_self).merge c.records_self
  rw [List.append_assoc] at hleft
  exact hleft.unique (a.records_self.merge (b.records_self.merge c.records_self))

theorem merge_empty (a : FieldMap) : a.merge empty = a := rfl

theorem merge_self (a : FieldMap) : a.merge a = a :=
  (a.records_self.merge a.records_self).unique a.records_self.again

theorem ofList_append (p q : List (String × String)) :
    ofList (p ++ q) = (ofList p).merge (ofList q) :=
  (records_ofList (p ++ q)).unique ((records_ofList p).merge (records_ofList q))

theorem sameBindings_iff {a b : FieldMap} :
    a.sameBindings b = true ↔ ∀ key, a.get? key = b.get? key := by
  have hnodup : ∀ m : FieldMap, m.entries.Nodup := fun m => m.nodup.of_map
  have hsubset : (∀ e ∈ a.entries, b.get? e.1 = some e.2) ↔ a.entries ⊆ b.entries := by
    simp only [get?_eq_some]
    rfl
  have hall : a.sameBindings b = true ↔ a.size = b.size ∧ a.entries ⊆ b.entries := by
    rw [← hsubset]
    simp [sameBindings]
  rw [hall]
  constructor
  · rintro ⟨hsize, hab⟩ key
    have hperm : a.entries.Perm b.entries :=
      (List.subperm_of_subset (hnodup a) hab).perm_of_length_le (Nat.le_of_eq hsize.symm)
    apply Option.ext
    intro value
    rw [get?_eq_some, get?_eq_some, hperm.mem_iff]
  · intro hget
    have hperm : a.entries.Perm b.entries := by
      rw [List.perm_ext_iff_of_nodup (hnodup a) (hnodup b)]
      intro e
      rw [← get?_eq_some, ← get?_eq_some, hget]
    exact ⟨hperm.length_eq, hperm.subset⟩

/-- Under any edits a map keeps its keys apart and in the order of their first writes, and holds under
each the last value written; an edit of one field gives the value that it replaces.  Merging is a
repetition of writes: it may be grouped at will, an empty map adds nothing, and neither does the map
itself.  Maps have the same bindings if they hold the same under every key. -/
theorem lastWriteWins :
    (∀ edits, (afterEdits edits).keys.Nodup ∧
      (afterEdits edits).keys = ((written edits).map Prod.fst).eraseDups ∧
      (∀ key, (afterEdits edits).get? key = (written edits).reverse.lookup key) ∧
      ∀ key value, (afterEdits edits).exchange key value =
        ((afterEdits edits).get? key, (afterEdits edits).insert key value)) ∧
    (∀ a b c : FieldMap, (a.merge b).merge c = a.merge (b.merge c)) ∧
    (∀ a : FieldMap, empty.merge a = a ∧ a.merge empty = a ∧ a.merge a = a) ∧
    (∀ p q, ofList (p ++ q) = (ofList p).merge (ofList q)) ∧
    ∀ a b : FieldMap, a.sameBindings b = true ↔ ∀ key, a.get? key = b.get? key := by
  refine ⟨fun edits => ?_, merge_assoc, fun a => ?_, ofList_append, fun a b => sameBindings_iff⟩
  · have hrecords : (afterEdits edits).Records (written edits) := records_empty.edits edits
    exact ⟨(afterEdits edits).nodup, hrecords.keys, hrecords.get?, exchange_eq _⟩
  · exact ⟨empty_merge a, merge_empty a, merge_self a⟩

end FieldMap

end ResolverPipeline
