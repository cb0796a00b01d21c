namespace ResolverPipeline

/-- Writes `value` under `key`: in place when the key is known, at the end when it is new. -/
def putField (key value : String) : List (String × String) → List (String × String)
  | [] => [(key, value)]
  | (k, v) :: rest => if k = key then (key, value) :: rest else (k, v) :: putField key value rest

theorem keys_putField (key value : String) (es : List (String × String)) :
    (putField key value es).map Prod.fst =
      if key ∈ es.map Prod.fst then es.map Prod.fst else es.map Prod.fst ++ [key] := by
  induction es with
  | nil => simp [putField]
  | cons e es ih =>
    obtain ⟨k, v⟩ := e
    by_cases h : k = key
    · simp [putField, h]
    · have h' : key ≠ k := fun e => h e.symm
      by_cases hm : key ∈ es.map Prod.fst <;> simp_all [putField]

theorem nodup_putField (key value : String) {es : List (String × String)}
    (h : (es.map Prod.fst).Nodup) : ((putField key value es).map Prod.fst).Nodup := by
  rw [keys_putField]
  split
  · exact h
  · rename_i hm
    rw [List.nodup_append]
    exact ⟨h, by simp, by simp_all; rintro a b h rfl; exact hm b h⟩

def exchangeField (key value : String) :
    List (String × String) → Option String × List (String × String)
  | [] => (none, [(key, value)])
  | (k, v) :: rest =>
    if k = key then (some v, (key, value) :: rest)
    else
      let (previous, rest) := exchangeField key value rest
      (previous, (k, v) :: rest)

theorem exchangeField_snd (key value : String) (es : List (String × String)) :
    (exchangeField key value es).2 = putField key value es := by
  induction es with
  | nil => rfl
  | cons e es ih =>
    obtain ⟨k, v⟩ := e
    rw [exchangeField, putField]
    split
    · rfl
    · exact congrArg ((k, v) :: ·) ih

structure FieldMap where
  entries : List (String × String)
  nodup : (entries.map Prod.fst).Nodup

namespace FieldMap

theorem ext {a b : FieldMap} (h : a.entries = b.entries) : a = b := by
  cases a; cases b; cases h; rfl

instance : DecidableEq FieldMap := fun a b =>
  decidable_of_iff (a.entries = b.entries) ⟨ext, congrArg entries⟩

def empty : FieldMap := ⟨[], by simp⟩

instance : Inhabited FieldMap := ⟨empty⟩

def insert (m : FieldMap) (key value : String) : FieldMap :=
  ⟨putField key value m.entries, nodup_putField key value m.nodup⟩

def exchange (m : FieldMap) (key value : String) : Option String × FieldMap :=
  ((exchangeField key value m.entries).1, ⟨(exchangeField key value m.entries).2, by
    rw [exchangeField_snd]
    exact nodup_putField key value m.nodup⟩)

def insertMany (m : FieldMap) (pairs : List (String × String)) : FieldMap :=
  pairs.foldl (fun m e => m.insert e.1 e.2) m

def merge (a b : FieldMap) : FieldMap := a.insertMany b.entries

def ofList (pairs : List (String × String)) : FieldMap := empty.insertMany pairs

def get? (m : FieldMap) (key : String) : Option String := m.entries.lookup key

def keys (m : FieldMap) : List String := m.entries.map Prod.fst

def size (m : FieldMap) : Nat := m.entries.length

def isEmpty (m : FieldMap) : Bool := m.entries.isEmpty

def sameBindings (a b : FieldMap) : Bool :=
  a.size == b.size && a.entries.all fun e => b.get? e.1 == some e.2

@[simp] theorem entries_empty : empty.entries = [] := rfl

@[simp] theorem entries_insert (m : FieldMap) (key value : String) :
    (m.insert key value).entries = putField key value m.entries := rfl

@[simp] theorem insertMany_nil (m : FieldMap) : m.insertMany [] = m := rfl

@[simp] theorem insertMany_cons (m : FieldMap) (e : String × String) (es : List (String × String)) :
    m.insertMany (e :: es) = (m.insert e.1 e.2).insertMany es := rfl

theorem insertMany_append (m : FieldMap) (p q : List (String × String)) :
    m.insertMany (p ++ q) = (m.insertMany p).insertMany q := List.foldl_append

end FieldMap

end ResolverPipeline
