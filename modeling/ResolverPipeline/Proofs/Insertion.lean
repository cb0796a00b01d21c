import Mathlib.Data.List.Perm.Basic
import ResolverPipeline.Definition

namespace ResolverPipeline

variable {α : Type}

theorem putSorted_perm {name : String} (value : α) {es : List (String × α)}
    (h : name ∉ es.map Prod.fst) : (putSorted name value es).Perm ((name, value) :: es) := by
  induction es with
  | nil => rfl
  | cons d rest ih =>
    obtain ⟨n, v⟩ := d
    rw [List.map_cons, List.mem_cons, not_or] at h
    obtain ⟨hne, hrest⟩ := h
    unfold putSorted
    simp only [hne, if_false]
    split
    · rfl
    · exact ((ih hrest).cons (n, v)).trans (.swap _ _ _)

theorem putSorted_of_last {name : String} (value : α) {es : List (String × α)}
    (h : ∀ e ∈ es, e.1 < name) : putSorted name value es = es ++ [(name, value)] := by
  induction es with
  | nil => rfl
  | cons d rest ih =>
    obtain ⟨n, v⟩ := d
    rw [List.forall_mem_cons] at h
    have hlt : ¬ name < n := fun hlt => String.lt_irrefl n (String.lt_trans h.1 hlt)
    have hne : name ≠ n := fun heq => String.lt_irrefl n (heq ▸ h.1)
    rw [putSorted, if_neg hlt, if_neg hne, ih h.2, List.cons_append]

namespace SortedMap

theorem entries_foldl_insert {m : SortedMap α} {es : List (String × α)}
    (h : (m.entries ++ es).Pairwise (·.1 < ·.1)) :
    (es.foldl (fun m e => m.insert e.1 e.2) m).entries = m.entries ++ es := by
  induction es generalizing m with
  | nil => simp
  | cons e rest ih =>
    have hlast : ∀ d ∈ m.entries, d.1 < e.1 := fun d hd =>
      (List.pairwise_append.1 h).2.2 d hd e List.mem_cons_self
    have hinsert : (m.insert e.1 e.2).entries = m.entries ++ [e] := putSorted_of_last e.2 hlast
    rw [List.foldl_cons, ih (by rwa [hinsert, ← List.append_cons]), hinsert, ← List.append_cons]

theorem ofList_entries (m : SortedMap α) : ofList m.entries = m :=
  SortedMap.ext (entries_foldl_insert m.sorted)

theorem eq_of_perm {a b : SortedMap α} (h : a.entries.Perm b.entries) : a = b := by
  apply SortedMap.ext
  apply h.eq_of_pairwise _ a.sorted b.sorted
  intro x y _ _ hxy hyx
  exact absurd (String.lt_trans hxy hyx) (String.lt_irrefl _)

theorem insert_perm {m : SortedMap α} {name : String} (value : α)
    (h : name ∉ m.entries.map Prod.fst) :
    (m.insert name value).entries.Perm ((name, value) :: m.entries) :=
  putSorted_perm value h

end SortedMap

namespace Resolvers

def key (e : Operation × String × Resolver) : Operation × String := (e.1, e.2.1)

def insert (r : Resolvers) : Operation × String × Resolver → Resolvers
  | (.query, name, resolver) => { r with query := r.query.insert name resolver }
  | (.mutation, name, resolver) => { r with mutation := r.mutation.insert name resolver }

def ofEntries (es : List (Operation × String × Resolver)) : Resolvers := es.foldl insert {}

theorem name_not_mem {m : SortedMap Resolver} {operation : Operation} {name : String}
    {resolver : Resolver}
    (h : key (operation, name, resolver) ∉ (m.entries.map fun e => (operation, e)).map key) :
    name ∉ m.entries.map Prod.fst := by
  intro hmem
  obtain ⟨e, he, rfl⟩ := List.mem_map.1 hmem
  exact h (List.mem_map.2 ⟨(operation, e), List.mem_map.2 ⟨e, he, rfl⟩, rfl⟩)

theorem insert_perm {r : Resolvers} {e : Operation × String × Resolver}
    (h : key e ∉ r.fields.map key) : (r.insert e).fields.Perm (e :: r.fields) := by
  obtain ⟨operation, name, resolver⟩ := e
  rw [fields, List.map_append, List.mem_append, not_or] at h
  obtain ⟨hquery, hmutation⟩ := h
  cases operation with
  | query => exact ((SortedMap.insert_perm resolver (name_not_mem hquery)).map _).append_right _
  | mutation =>
    have hperm := SortedMap.insert_perm resolver (name_not_mem hmutation)
    exact ((hperm.map _).append_left _).trans List.perm_middle

theorem foldl_insert_perm {es : List (Operation × String × Resolver)} {r : Resolvers}
    (h : ((es ++ r.fields).map key).Nodup) :
    (es.foldl insert r).fields.Perm (es ++ r.fields) := by
  induction es generalizing r with
  | nil => rfl
  | cons e rest ih =>
    have hnew : key e ∉ r.fields.map key := by
      simp only [List.cons_append, List.map_cons, List.map_append, List.nodup_cons,
        List.mem_append, not_or] at h
      exact h.1.2
    have hperm : (rest ++ (r.insert e).fields).Perm (e :: rest ++ r.fields) :=
      ((insert_perm hnew).append_left rest).trans List.perm_middle
    have hrest : ((rest ++ (r.insert e).fields).map key).Nodup := (hperm.map key).nodup_iff.2 h
    exact (ih hrest).trans hperm

theorem ofEntries_perm {es : List (Operation × String × Resolver)} (h : (es.map key).Nodup) :
    (ofEntries es).fields.Perm es := by
  have hempty : es ++ fields {} = es := List.append_nil es
  have hperm : (ofEntries es).fields.Perm (es ++ fields {}) := foldl_insert_perm (by rwa [hempty])
  rwa [hempty] at hperm

def group (r : Resolvers) : Operation → SortedMap Resolver
  | .query => r.query
  | .mutation => r.mutation

theorem filterMap_group (r : Resolvers) (operation : Operation) :
    r.fields.filterMap (fun e => if e.1 = operation then some e.2 else none) =
      (r.group operation).entries := by
  cases operation <;> simp [fields, group, List.filterMap_map]

theorem eq_of_perm {r r' : Resolvers} (h : r.fields.Perm r'.fields) : r = r' := by
  have hgroup : ∀ operation, r.group operation = r'.group operation := by
    intro operation
    apply SortedMap.eq_of_perm
    rw [← filterMap_group, ← filterMap_group]
    exact h.filterMap _
  obtain ⟨query, mutation⟩ := r
  obtain ⟨query', mutation'⟩ := r'
  have hquery : query = query' := hgroup .query
  have hmutation : mutation = mutation' := hgroup .mutation
  rw [hquery, hmutation]

def Before (e e' : Operation × String × Resolver) : Prop :=
  (e.1 = .query ∧ e'.1 = .mutation) ∨ (e.1 = e'.1 ∧ e.2.1 < e'.2.1)

theorem fields_ordered (r : Resolvers) : r.fields.Pairwise Before := by
  rw [fields, List.pairwise_append, List.pairwise_map, List.pairwise_map]
  refine ⟨?_, ?_, ?_⟩
  · exact r.query.sorted.imp fun h => .inr ⟨rfl, h⟩
  · exact r.mutation.sorted.imp fun h => .inr ⟨rfl, h⟩
  · intro e he e' he'
    obtain ⟨_, -, rfl⟩ := List.mem_map.1 he
    obtain ⟨_, -, rfl⟩ := List.mem_map.1 he'
    exact .inl ⟨rfl, rfl⟩

end Resolvers

end ResolverPipeline
