import Mathlib.Data.List.Nodup
import ResolverPipeline.Proofs.RoundTrip

namespace ResolverPipeline

open Document

def keyed (fields : List (String × Datum)) : List (Datum × Datum) :=
  fields.map fun f => (.string f.1, f.2)

theorem keyed_append (fields more : List (String × Datum)) :
    keyed (fields ++ more) = keyed fields ++ keyed more := List.map_append

theorem forall₂_append_iff {α β : Type} {R : α → β → Prop} {as as' : List α} {cs : List β} :
    List.Forall₂ R (as ++ as') cs ↔
      ∃ bs bs', cs = bs ++ bs' ∧ List.Forall₂ R as bs ∧ List.Forall₂ R as' bs' := by
  constructor
  · intro h
    exact ⟨cs.take as.length, cs.drop as.length, (List.take_append_drop _ _).symm,
      (List.forall₂_take_append cs as as' h.flip).flip,
      (List.forall₂_drop_append cs as as' h.flip).flip⟩
  · rintro ⟨bs, bs', rfl, h, h'⟩
    exact List.rel_append h h'

namespace Json

def Cursor.ofObject (members : List (String × Node)) (depth : Nat) : Cursor :=
  ⟨.object (members.map fun e => (some e.1, e.2)) true, depth⟩

def Cursor.ofEntry (depth : Nat) (e : String × Node) : Cursor × Cursor :=
  (⟨.string (some e.1), depth⟩, ⟨e.2, depth⟩)

structure Buffers (depth : Nat) (e : String × Node) (taken : String × Datum) : Prop where
  name : e.1 = taken.1
  value : Node.buffer depth e.2 = .ok taken.2

theorem Cursor.shape_ofObject (members : List (String × Node)) (depth : Nat) :
    Source.shape (m := Read) (ofObject members (depth + 1)) =
      .ok (.map ⟨members.map (ofEntry depth), true⟩) := by
  change (Shape.map <$> enterMembers (depth + 1) _ true : Read _) = _
  rw [enterMembers, List.map_map]
  rfl

theorem Cursor.text_eq_ok {c : Cursor} {expected s : String} :
    Source.text (m := Read) expected c = .ok s ↔ c.node = .string (some s) := by
  change Cursor.text expected c = .ok s ↔ _
  unfold Cursor.text
  split
  · rename_i s' h
    simp [h]
  · rename_i hne
    have hunwanted : ∀ s', c.unwanted expected ≠ (.ok s' : Read String) := by
      intro s'
      unfold Cursor.unwanted
      split <;> simp [fail, malformed, throw, throwThe, MonadExceptOf.throw]
    exact ⟨fun h => absurd h (hunwanted s), fun h => absurd h (hne s)⟩

end Json

namespace Descriptor

open Json

variable {depth : Nat} {members : List (String × Node)}

theorem lift_eq_ok {α : Type} {x : Except Fault α} {a : α} :
    (lift x : Read α) = .ok a ↔ x = .ok a := by
  cases x <;> simp [lift, fail, throw, throwThe, MonadExceptOf.throw]

theorem once_none {α : Type} (name : String) (read : Read α) :
    once name none read = read.map some := rfl

theorem readTag_eq_ok {c : Cursor} {tag : String} :
    readTag (m := Read) c = .ok tag ↔ c.node = .string (some tag) ∧ tag ∈ tags := by
  have hknown : ∀ name, knownName tags name = .ok tag ↔ name = tag ∧ tag ∈ tags := by
    intro name
    unfold knownName
    split
    · rename_i h
      simp only [Except.ok.injEq]
      exact ⟨fun e => ⟨e, e ▸ h⟩, fun h => h.1⟩
    · rename_i h
      simp only [reduceCtorEq, false_iff]
      rintro ⟨rfl, h'⟩
      exact h h'
  simp only [readTag, Cursor.within_eq, bind_eq_ok, Cursor.text_eq_ok, lift_eq_ok, hknown]
  constructor
  · rintro ⟨name, hname, rfl, htag⟩
    exact ⟨hname, htag⟩
  · rintro ⟨hname, htag⟩
    exact ⟨tag, hname, rfl, htag⟩

theorem readMembers_type (tag : Option String) (seen : List (Datum × Datum)) (v : Node)
    (es : List (Cursor × Cursor)) :
    readMembers (m := Read) tag seen (Cursor.ofEntry depth ("type", v) :: es) =
      once "type" tag (readTag (Cursor.mk v depth)) >>= fun tag => readMembers tag seen es := by
  rw [Cursor.ofEntry, readMembers]
  change (Node.buffer depth (.string (some "type")) >>= _ : Read _) = _
  rw [Node.buffer]
  rfl

theorem readMembers_of_ne {e : String × Node} (h : e.1 ≠ "type") (tag : Option String)
    (seen : List (Datum × Datum)) (es : List (Cursor × Cursor)) :
    readMembers (m := Read) tag seen (Cursor.ofEntry depth e :: es) =
      Node.buffer depth e.2 >>= fun value =>
        readMembers tag ((.string e.1, value) :: seen) es := by
  rw [Cursor.ofEntry, readMembers]
  change (Node.buffer depth (.string (some e.1)) >>= _ : Read _) = _
  rw [Node.buffer, except_ok_bind]
  split
  · rename_i htype
    exact absurd (Datum.string.inj htype) h
  · rfl

theorem readMembers_untagged (h : ∀ e ∈ members, e.1 ≠ "type") {tag : Option String}
    {seen : List (Datum × Datum)} {es : List (Cursor × Cursor)}
    {r : Option String × List (Datum × Datum)} :
    readMembers (m := Read) tag seen (members.map (Cursor.ofEntry depth) ++ es) = .ok r ↔
      ∃ fields, List.Forall₂ (Buffers depth) members fields ∧
        readMembers (m := Read) tag ((keyed fields).reverse ++ seen) es = .ok r := by
  induction members generalizing seen with
  | nil => simp [keyed]
  | cons e rest ih =>
    rw [List.forall_mem_cons] at h
    rw [List.map_cons, List.cons_append, readMembers_of_ne h.1, bind_eq_ok]
    simp only [ih h.2]
    constructor
    · rintro ⟨value, hvalue, fields, hrest, hr⟩
      refine ⟨(e.1, value) :: fields, .cons ⟨rfl, hvalue⟩ hrest, ?_⟩
      simpa [keyed] using hr
    · rintro ⟨_, h, hr⟩
      cases h with
      | @cons _ f _ fields he hrest =>
        refine ⟨f.2, he.value, fields, hrest, ?_⟩
        simpa [keyed, he.name] using hr

theorem readMembers_all (h : ∀ e ∈ members, e.1 ≠ "type") {tag : Option String}
    {seen : List (Datum × Datum)} {r : Option String × List (Datum × Datum)} :
    readMembers (m := Read) tag seen (members.map (Cursor.ofEntry depth)) = .ok r ↔
      ∃ fields, List.Forall₂ (Buffers depth) members fields ∧
        (tag, seen.reverse ++ keyed fields) = r := by
  rw [← List.append_nil (members.map _), readMembers_untagged h]
  simp [readMembers]

theorem readEntries_split {before after : List (String × Node)} {v : Node}
    (hbefore : ∀ e ∈ before, e.1 ≠ "type") (hafter : ∀ e ∈ after, e.1 ≠ "type") {tag : String}
    {content : Content} :
    readEntries (m := Read)
        ⟨(before ++ ("type", v) :: after).map (Cursor.ofEntry depth), true⟩ = .ok (tag, content) ↔
      (v = .string (some tag) ∧ tag ∈ tags) ∧
        ∃ fields, List.Forall₂ (Buffers depth) (before ++ after) fields ∧
          .members (keyed fields) = content := by
  have hmembers : ∀ {r : Option String × List (Datum × Datum)},
      readMembers (m := Read) none []
          ((before ++ ("type", v) :: after).map (Cursor.ofEntry depth)) = .ok r ↔
        ∃ t fields, (v = .string (some t) ∧ t ∈ tags) ∧
          List.Forall₂ (Buffers depth) (before ++ after) fields ∧ (some t, keyed fields) = r := by
    intro r
    rw [List.map_append, List.map_cons, readMembers_untagged hbefore]
    simp only [readMembers_type, once_none, bind_eq_ok, map_eq_ok, readTag_eq_ok,
      readMembers_all hafter, forall₂_append_iff, List.reverse_append, List.reverse_reverse,
      List.reverse_nil, List.nil_append, ← keyed_append]
    constructor
    · rintro ⟨first, hfirst, _, ⟨t, ht, rfl⟩, rest, hrest, hr⟩
      exact ⟨t, _, ht, ⟨first, rest, rfl, hfirst, hrest⟩, hr⟩
    · rintro ⟨t, _, ht, ⟨first, rest, rfl, hfirst, hrest⟩, hr⟩
      exact ⟨first, hfirst, _, ⟨t, ht, rfl⟩, rest, hrest, hr⟩
  rw [readEntries, bind_eq_ok]
  simp only [hmembers]
  constructor
  · rintro ⟨_, ⟨t, fields, ht, hfields, rfl⟩, h⟩
    cases h
    exact ⟨ht, fields, hfields, rfl⟩
  · rintro ⟨ht, fields, hfields, rfl⟩
    exact ⟨_, ⟨tag, fields, ht, hfields, rfl⟩, rfl⟩

theorem readEntries_untagged (h : ∀ e ∈ members, e.1 ≠ "type") (r : String × Content) :
    readEntries (m := Read) ⟨members.map (Cursor.ofEntry depth), true⟩ ≠ .ok r := by
  intro hr
  rw [readEntries, bind_eq_ok] at hr
  simp only [readMembers_all h] at hr
  obtain ⟨_, ⟨fields, -, rfl⟩, hr⟩ := hr
  cases hr

def untagged (members : List (String × Node)) : List (String × Node) :=
  members.filter fun e => e.1 ≠ "type"

theorem untagged_split {before after : List (String × Node)} {v : Node}
    (hkeys : ((before ++ ("type", v) :: after).map Prod.fst).Nodup) :
    (∀ e ∈ before, e.1 ≠ "type") ∧ (∀ e ∈ after, e.1 ≠ "type") ∧
      untagged (before ++ ("type", v) :: after) = before ++ after := by
  rw [List.map_append, List.map_cons, List.nodup_middle, List.nodup_cons, ← List.map_append] at hkeys
  have hne : ∀ e ∈ before ++ after, e.1 ≠ "type" :=
    fun e he htype => hkeys.1 (List.mem_map.2 ⟨e, he, htype⟩)
  obtain ⟨hbefore, hafter⟩ := List.forall_mem_append.1 hne
  refine ⟨hbefore, hafter, ?_⟩
  rw [untagged, List.filter_append, List.filter_cons_of_neg (by simp), ← List.filter_append]
  exact List.filter_eq_self.2 fun e he => by simpa using hne e he

/-- Where the tag stands does not matter to what is read, but the order of the other members may. -/
theorem read_ofObject_iff (hkeys : (members.map Prod.fst).Nodup) {d : Descriptor} :
    read (m := Read) (Cursor.ofObject members (depth + 1)) = .ok d ↔ ∃ tag fields,
      ("type", .string (some tag)) ∈ members ∧ tag ∈ tags ∧
        List.Forall₂ (Buffers depth) (untagged members) fields ∧
        ofContent tag (.members (keyed fields)) = .ok d := by
  have hread : read (m := Read) (Cursor.ofObject members (depth + 1)) = .ok d ↔ ∃ tag content,
      readEntries (m := Read) ⟨members.map (Cursor.ofEntry depth), true⟩ = .ok (tag, content) ∧
        ofContent tag content = .ok d := by
    simp only [read, readTagged, Cursor.shape_ofObject, Cursor.within_eq, except_ok_bind, bind_eq_ok,
      lift_eq_ok, Prod.exists]
  rw [hread]
  by_cases htype : ∃ v, ("type", v) ∈ members
  · obtain ⟨v, hv⟩ := htype
    obtain ⟨before, after, rfl⟩ := List.append_of_mem hv
    obtain ⟨hbefore, hafter, huntagged⟩ := untagged_split hkeys
    have honly : ∀ {w}, ("type", w) ∈ before ++ ("type", v) :: after ↔ w = v := by
      intro w
      simp only [List.mem_append, List.mem_cons, Prod.mk.injEq, true_and]
      constructor
      · rintro (h | h | h)
        · exact absurd rfl (hbefore _ h)
        · exact h
        · exact absurd rfl (hafter _ h)
      · exact fun h => .inr (.inl h)
    simp only [readEntries_split hbefore hafter, huntagged, honly]
    constructor
    · rintro ⟨tag, _, ⟨⟨rfl, htag⟩, fields, hfields, rfl⟩, hd⟩
      exact ⟨tag, fields, rfl, htag, hfields, hd⟩
    · rintro ⟨tag, fields, rfl, htag, hfields, hd⟩
      exact ⟨tag, _, ⟨⟨rfl, htag⟩, fields, hfields, rfl⟩, hd⟩
  · have hne : ∀ e ∈ members, e.1 ≠ "type" := fun e he h => htype ⟨e.2, h ▸ he⟩
    constructor
    · rintro ⟨tag, content, h, -⟩
      exact absurd h (readEntries_untagged hne _)
    · rintro ⟨tag, -, h, -⟩
      exact absurd ⟨_, h⟩ htype

end Descriptor

end ResolverPipeline
