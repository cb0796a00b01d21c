import ResolverPipeline.FieldMap
import ResolverPipeline.Proofs.Repetition

namespace ResolverPipeline

theorem lookup_cons_eq_ite (e : String × String) (es : List (String × String)) (k : String) :
    (e :: es).lookup k = if k = e.1 then some e.2 else es.lookup k := by
  rw [List.lookup_cons]
  by_cases h : k = e.1
  · simp [h]
  · simp [beq_eq_false_iff_ne.2 h, h]

theorem lookup_putField (key value : String) (es : List (String × String)) (k : String) :
    (putField key value es).lookup k = if k = key then some value else es.lookup k := by
  induction es with
  | nil => rw [putField, lookup_cons_eq_ite]
  | cons e rest ih =>
    obtain ⟨k', v⟩ := e
    rw [putField]
    split
    · rename_i h
      subst h
      simp only [lookup_cons_eq_ite]
      split <;> rfl
    · rename_i h
      simp only [lookup_cons_eq_ite, ih]
      split
      · rename_i hk
        rw [if_neg (hk ▸ h)]
      · rfl

theorem putField_of_not_mem {key : String} (value : String) {es : List (String × String)}
    (h : key ∉ es.map Prod.fst) : putField key value es = es ++ [(key, value)] := by
  induction es with
  | nil => rfl
  | cons e rest ih =>
    rw [List.map_cons, List.mem_cons, not_or] at h
    rw [putField, if_neg (Ne.symm h.1), ih h.2, List.cons_append]

theorem lookup_eq_some_of_nodup {es : List (String × String)} (h : (es.map Prod.fst).Nodup)
    {key value : String} : es.lookup key = some value ↔ (key, value) ∈ es := by
  induction es with
  | nil => simp
  | cons e rest ih =>
    obtain ⟨k, v⟩ := e
    rw [List.map_cons, List.nodup_cons] at h
    rw [lookup_cons_eq_ite, List.mem_cons, Prod.mk.injEq]
    by_cases hk : key = k
    · subst hk
      have hnew : (key, value) ∉ rest := by
        intro hmem
        exact h.1 (List.mem_map.2 ⟨(key, value), hmem, rfl⟩)
      simp [hnew, eq_comm]
    · simp [hk, ih h.2]

namespace FieldMap

@[simp] theorem get?_empty (k : String) : empty.get? k = none := rfl

@[simp] theorem get?_insert (m : FieldMap) (key value k : String) :
    (m.insert key value).get? k = if k = key then some value else m.get? k :=
  lookup_putField key value m.entries k

theorem get?_insertMany (m : FieldMap) (pairs : List (String × String)) (k : String) :
    (m.insertMany pairs).get? k = (pairs.reverse.lookup k).or (m.get? k) := by
  induction pairs generalizing m with
  | nil => rfl
  | cons e rest ih =>
    rw [insertMany_cons, ih, get?_insert, List.reverse_cons, List.lookup_append, Option.or_assoc,
      lookup_cons_eq_ite]
    split <;> rfl

theorem get?_ofList (pairs : List (String × String)) (k : String) :
    (ofList pairs).get? k = pairs.reverse.lookup k := by
  rw [ofList, get?_insertMany, get?_empty, Option.or_none]

theorem entries_insertMany {m : FieldMap} {pairs : List (String × String)}
    (h : ((m.entries ++ pairs).map Prod.fst).Nodup) :
    (m.insertMany pairs).entries = m.entries ++ pairs := by
  induction pairs generalizing m with
  | nil => simp
  | cons e rest ih =>
    have hnew : e.1 ∉ m.entries.map Prod.fst := by
      intro hmem
      rw [List.map_append, List.nodup_append] at h
      exact h.2.2 e.1 hmem e.1 List.mem_cons_self rfl
    have hinsert : (m.insert e.1 e.2).entries = m.entries ++ [e] := putField_of_not_mem e.2 hnew
    rw [insertMany_cons, ih (by rwa [hinsert, ← List.append_cons]), hinsert, ← List.append_cons]

@[simp] theorem ofList_entries (m : FieldMap) : ofList m.entries = m := by
  apply FieldMap.ext
  exact entries_insertMany (by simpa using m.nodup)

theorem empty_merge (m : FieldMap) : empty.merge m = m := ofList_entries m

theorem get?_eq_some {m : FieldMap} {key value : String} :
    m.get? key = some value ↔ (key, value) ∈ m.entries :=
  lookup_eq_some_of_nodup m.nodup

theorem mem_of_mem_ofList {pairs : List (String × String)} {e : String × String}
    (h : e ∈ (ofList pairs).entries) : e ∈ pairs := by
  have hlookup : pairs.reverse.lookup e.1 = some e.2 := by rw [← get?_ofList, get?_eq_some.2 h]
  obtain ⟨before, after, hpairs, -⟩ := List.lookup_eq_some_iff.1 hlookup
  rw [← List.mem_reverse, hpairs]
  exact List.mem_append_right before List.mem_cons_self

theorem keys_insert (m : FieldMap) (key value : String) :
    (m.insert key value).keys = if key ∈ m.keys then m.keys else m.keys ++ [key] :=
  keys_putField key value m.entries

theorem keys_insertMany {m : FieldMap} {written : List String} (h : m.keys = written.eraseDups)
    (pairs : List (String × String)) :
    (m.insertMany pairs).keys = (written ++ pairs.map Prod.fst).eraseDups := by
  induction pairs generalizing m written with
  | nil => simp [h]
  | cons e rest ih =>
    have hinsert : (m.insert e.1 e.2).keys = (written ++ [e.1]).eraseDups := by
      rw [keys_insert, eraseDups_concat, h]
      simp only [List.mem_eraseDups]
    rw [insertMany_cons, ih hinsert, List.map_cons, ← List.append_cons]

theorem keys_ofList (pairs : List (String × String)) :
    (ofList pairs).keys = (pairs.map Prod.fst).eraseDups := by
  have hempty : empty.keys = ([] : List String).eraseDups := rfl
  exact keys_insertMany hempty pairs

end FieldMap

end ResolverPipeline
