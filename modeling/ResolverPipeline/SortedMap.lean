namespace ResolverPipeline

variable {α : Type}

def putSorted (name : String) (value : α) : List (String × α) → List (String × α)
  | [] => [(name, value)]
  | (n, v) :: rest =>
    if name < n then (name, value) :: (n, v) :: rest
    else if name = n then (name, value) :: rest
    else (n, v) :: putSorted name value rest

theorem mem_putSorted {name : String} {value : α} {e : String × α} {es : List (String × α)}
    (h : e ∈ putSorted name value es) : e = (name, value) ∨ e ∈ es := by
  induction es with
  | nil => simpa [putSorted] using h
  | cons d es ih =>
    obtain ⟨n, v⟩ := d
    unfold putSorted at h
    split at h
    · simpa using h
    · split at h
      · simp only [List.mem_cons] at h ⊢
        exact h.imp_right .inr
      · simp only [List.mem_cons] at h ⊢
        rcases h with h | h
        · exact .inr (.inl h)
        · exact (ih h).imp_right .inr

theorem pairwise_putSorted (name : String) (value : α) {es : List (String × α)}
    (h : es.Pairwise (·.1 < ·.1)) : (putSorted name value es).Pairwise (·.1 < ·.1) := by
  induction es with
  | nil => simp [putSorted]
  | cons d es ih =>
    obtain ⟨n, v⟩ := d
    rw [List.pairwise_cons] at h
    unfold putSorted
    split
    · rename_i hlt
      refine List.pairwise_cons.2 ⟨fun e he => ?_, List.pairwise_cons.2 h⟩
      rcases List.mem_cons.1 he with rfl | he
      · exact hlt
      · exact String.lt_trans hlt (h.1 e he)
    · split
      · rename_i heq
        subst heq
        exact List.pairwise_cons.2 h
      · rename_i hlt hne
        refine List.pairwise_cons.2 ⟨fun e he => ?_, ih h.2⟩
        rcases mem_putSorted he with rfl | he
        · rcases Std.lt_trichotomy n name with h | h | h
          · exact h
          · exact absurd h.symm hne
          · exact absurd h hlt
        · exact h.1 e he

structure SortedMap (α : Type) where
  entries : List (String × α)
  sorted : entries.Pairwise (·.1 < ·.1)

namespace SortedMap

theorem ext {a b : SortedMap α} (h : a.entries = b.entries) : a = b := by
  cases a; cases b; cases h; rfl

instance [DecidableEq α] : DecidableEq (SortedMap α) := fun a b =>
  decidable_of_iff (a.entries = b.entries) ⟨ext, congrArg entries⟩

def empty : SortedMap α := ⟨[], .nil⟩

instance : Inhabited (SortedMap α) := ⟨empty⟩

def insert (m : SortedMap α) (name : String) (value : α) : SortedMap α :=
  ⟨putSorted name value m.entries, pairwise_putSorted name value m.sorted⟩

def ofList (es : List (String × α)) : SortedMap α :=
  es.foldl (fun m e => m.insert e.1 e.2) empty

def size (m : SortedMap α) : Nat := m.entries.length

def isEmpty (m : SortedMap α) : Bool := m.entries.isEmpty

@[simp] theorem entries_empty : (empty : SortedMap α).entries = [] := rfl

@[simp] theorem entries_insert (m : SortedMap α) (name : String) (value : α) :
    (m.insert name value).entries = putSorted name value m.entries := rfl

end SortedMap

end ResolverPipeline
