import ResolverPipeline.Proofs.FieldOrder

namespace ResolverPipeline

open Document

namespace Json.Node

def text? : Node → Option String
  | .string s => s
  | .boolean b => some (if b then "true" else "false")
  | .number n => n.map Number.text
  | _ => none

/-- A name is written as it is, or as the only key of an object that holds nothing else. -/
inductive Names : Node → String → Prop
  | text {name : String} : Names (.string (some name)) name
  | key {name : String} {v : Node} : v = .null ∨ v = .object [] true →
      Names (.object [(some name, v)] true) name

section Buffering

variable {depth : Nat} {n : Node}

def TakenFrom (depth : Nat) (n : Node) : Datum → Prop
  | .null => n = .null
  | .boolean b => n = .boolean b
  | .integer m => n = .number (some (.whole m))
  | .float x => n = .number (some (.real x))
  | .string s => n = .string (some s)
  | .sequence ds => ∃ below items, depth = below + 1 ∧ n = .array items true ∧
      bufferItems below items = .ok ds
  | .map ds => ∃ below members, depth = below + 1 ∧ n = .object members true ∧
      bufferMembers below members = .ok ds

theorem takenFrom_of_buffer {v : Datum} (h : n.buffer depth = .ok v) : TakenFrom depth n v := by
  match n with
  | .null | .boolean _ | .number (some (.whole _)) | .number (some (.real _)) | .string (some _) =>
    cases depth <;> cases h <;> rfl
  | .number none | .string none | .broken => cases depth <;> cases h
  | .array items closed =>
    cases depth with
    | zero => cases h
    | succ depth =>
      rw [buffer, bind_eq_ok] at h
      obtain ⟨ds, hds, h⟩ := h
      cases closed <;> cases h
      exact ⟨depth, items, rfl, rfl, hds⟩
  | .object members closed =>
    cases depth with
    | zero => cases h
    | succ depth =>
      rw [buffer, bind_eq_ok] at h
      obtain ⟨ds, hds, h⟩ := h
      cases closed <;> cases h
      exact ⟨depth, members, rfl, rfl, hds⟩

theorem asText?_of_buffer {v : Datum} (h : n.buffer depth = .ok v) : v.found.asText? = n.text? := by
  have htaken := takenFrom_of_buffer h
  cases v with
  | sequence ds =>
    obtain ⟨-, -, -, rfl, -⟩ := htaken
    rfl
  | map ds =>
    obtain ⟨-, -, -, rfl, -⟩ := htaken
    rfl
  | boolean b =>
    obtain rfl := htaken
    cases b <;> rfl
  | _ =>
    obtain rfl := htaken
    rfl

theorem bufferMembers_eq_cons {members : List (Option String × Node)} {k v : Datum}
    {ds : List (Datum × Datum)} (h : bufferMembers depth members = .ok ((k, v) :: ds)) :
    ∃ name n rest, members = (some name, n) :: rest ∧ k = .string name ∧ n.buffer depth = .ok v ∧
      bufferMembers depth rest = .ok ds := by
  match members with
  | [] => cases h
  | (none, n) :: rest => cases h
  | (some name, n) :: rest =>
    simp only [bufferMembers, bind_eq_ok] at h
    obtain ⟨v, hv, ds, hds, h⟩ := h
    cases h
    exact ⟨name, n, rest, rfl, rfl, hv, hds⟩

theorem bufferMembers_eq_nil {members : List (Option String × Node)}
    (h : bufferMembers depth members = .ok []) : members = [] := by
  match members with
  | [] => rfl
  | (none, n) :: rest => cases h
  | (some name, n) :: rest =>
    simp only [bufferMembers, bind_eq_ok] at h
    obtain ⟨v, hv, ds, hds, h⟩ := h
    cases h

theorem ofName_eq_ok {s : String} {a : DbAction} (h : DbAction.ofName s = .ok a) : a.name = s := by
  unfold DbAction.ofName at h
  split at h
  · rename_i hfind
    cases h
    simpa using List.find?_some hfind
  · cases h

theorem names_of_ofDatum {v : Datum} {a : DbAction} (hv : n.buffer depth = .ok v)
    (h : DbAction.ofDatum v = .ok a) : n.Names a.name := by
  have htaken := takenFrom_of_buffer hv
  unfold DbAction.ofDatum at h
  split at h
  · rw [htaken, ofName_eq_ok h]
    exact .text
  · rename_i k u
    obtain ⟨below, members, -, rfl, hmembers⟩ := htaken
    obtain ⟨name, n, rest, rfl, rfl, hu, hrest⟩ := bufferMembers_eq_cons hmembers
    rw [bufferMembers_eq_nil hrest]
    rw [bind_eq_ok] at h
    obtain ⟨a', ha', h⟩ := h
    have hu' := takenFrom_of_buffer hu
    split at h
    · cases h
      rw [ofName_eq_ok ha']
      exact .key (.inl hu')
    · cases h
      obtain ⟨_, members, _, rfl, hempty⟩ := hu'
      rw [bufferMembers_eq_nil hempty, ofName_eq_ok ha']
      exact .key (.inr rfl)
    · cases h
  · cases h
  · cases h

end Buffering

end Json.Node

namespace Descriptor

open Json

variable {depth : Nat} {members members' : List (String × Node)} {d d' : Descriptor}

theorem read_ofObject_zero (d : Descriptor) :
    read (m := Read) (Cursor.ofObject members 0) ≠ .ok d := nofun

theorem untagged_perm (hperm : members.Perm members') :
    (untagged members).Perm (untagged members') := hperm.filter _

theorem map_fst_of_buffers {fields : List (String × Datum)}
    (h : List.Forall₂ (Buffers depth) members fields) :
    fields.map Prod.fst = members.map Prod.fst := by
  induction h with
  | nil => rfl
  | cons he _ ih => rw [List.map_cons, List.map_cons, ih, he.name]

theorem nodup_of_buffers (hkeys : (members.map Prod.fst).Nodup) {fields : List (String × Datum)}
    (h : List.Forall₂ (Buffers depth) (untagged members) fields) : (fields.map Prod.fst).Nodup := by
  rw [map_fst_of_buffers h]
  exact hkeys.sublist (List.filter_sublist.map Prod.fst)

theorem read_perm (hkeys : (members.map Prod.fst).Nodup) (hperm : members.Perm members')
    (h : read (m := Read) (Cursor.ofObject members depth) = .ok d) :
    ∃ d', read (m := Read) (Cursor.ofObject members' depth) = .ok d' ∧ d'.tag = d.tag ∧
      (d.isExecutable = true → d' = d) := by
  cases depth with
  | zero => exact absurd h (read_ofObject_zero d)
  | succ depth =>
    have hkeys' : (members'.map Prod.fst).Nodup := (hperm.map Prod.fst).nodup_iff.1 hkeys
    obtain ⟨tag, fields, htype, htag, hfields, hd⟩ := (read_ofObject_iff hkeys).1 h
    obtain ⟨fields', hfields', hperm'⟩ :=
      List.perm_comp_forall₂ (untagged_perm hperm).symm hfields
    obtain ⟨d', hd', hsame⟩ := ofContent_perm hperm'.symm (nodup_of_buffers hkeys hfields) hd
    have htype' : ("type", .string (some tag)) ∈ members' := hperm.mem_iff.1 htype
    refine ⟨d', (read_ofObject_iff hkeys').2 ⟨tag, fields', htype', htag, hfields', hd'⟩, ?_, hsame⟩
    rw [ofContent_tag hd, ofContent_tag hd']

theorem map_fst_of_rawFields {fields : List (String × Datum)} {pairs : List (String × String)}
    (h : List.Forall₂ RawField fields pairs) : fields.map Prod.fst = pairs.map Prod.fst := by
  induction h with
  | nil => rfl
  | cons hf _ ih => rw [List.map_cons, List.map_cons, ih, hf.name]

theorem texts_of_buffers {fields : List (String × Datum)} {pairs : List (String × String)}
    (h : List.Forall₂ (Buffers depth) members fields) (hpairs : List.Forall₂ RawField fields pairs) :
    pairs.map (fun p => (p.1, some p.2)) = members.map fun e => (e.1, e.2.text?) := by
  induction h generalizing pairs with
  | nil =>
    cases hpairs
    rfl
  | @cons e f members fields he _ ih =>
    cases hpairs with
    | @cons _ p _ pairs hf hrest =>
      have htext : e.2.text? = some p.2 := by
        rw [← Node.asText?_of_buffer he.value, ← raw_eq_ok]
        exact hf.value
      rw [List.map_cons, List.map_cons, ih hrest, htext, he.name, hf.name]

theorem read_add (hkeys : (members.map Prod.fst).Nodup) {fields : FieldMap}
    (h : read (m := Read) (Cursor.ofObject members depth) = .ok (.add fields)) :
    fields.entries.map (fun f => (f.1, some f.2)) =
      (untagged members).map fun e => (e.1, e.2.text?) := by
  cases depth with
  | zero => exact absurd h (read_ofObject_zero _)
  | succ depth =>
    obtain ⟨tag, taken, -, -, htaken, hd⟩ := (read_ofObject_iff hkeys).1 h
    obtain rfl := ofContent_tag hd
    obtain ⟨pairs, hpairs, heq⟩ := readAdd_eq_ok.1 hd
    have hnodup : (pairs.map Prod.fst).Nodup := by
      rw [← map_fst_of_rawFields hpairs]
      exact nodup_of_buffers hkeys htaken
    have hentries : fields.entries = pairs := by
      rw [← Descriptor.add.inj heq]
      exact FieldMap.entries_insertMany hnodup
    rw [hentries]
    exact texts_of_buffers htaken hpairs

theorem read_named (hkeys : (members.map Prod.fst).Nodup)
    (h : read (m := Read) (Cursor.ofObject members depth) = .ok d) :
    ("type", .string (some d.tag)) ∈ members ∧ ∀ access, d = .db access →
      ∃ v, ("action", v) ∈ members ∧ v.Names access.action.name := by
  cases depth with
  | zero => exact absurd h (read_ofObject_zero _)
  | succ depth =>
    obtain ⟨tag, taken, htype, -, htaken, hd⟩ := (read_ofObject_iff hkeys).1 h
    obtain rfl := ofContent_tag hd
    refine ⟨htype, ?_⟩
    rintro access rfl
    obtain ⟨v, hv, haction⟩ := action_of_ofContent hd
    obtain ⟨e, he, hbuffers⟩ := exists_mem_of_forall₂ htaken hv
    obtain ⟨name, n⟩ := e
    obtain rfl : name = "action" := hbuffers.name
    exact ⟨n, List.mem_of_mem_filter he, Node.names_of_ofDatum hbuffers.value haction⟩

theorem read_moved_tag {before after : List (String × Node)} {v : Node}
    (hkeys : ((before ++ ("type", v) :: after).map Prod.fst).Nodup) :
    read (m := Read) (Cursor.ofObject (before ++ ("type", v) :: after) depth) = .ok d ↔
      read (m := Read) (Cursor.ofObject (("type", v) :: (before ++ after)) depth) = .ok d := by
  have hkeys' : ((("type", v) :: (before ++ after)).map Prod.fst).Nodup :=
    (List.perm_middle.map Prod.fst).nodup_iff.1 hkeys
  cases depth with
  | zero => simp only [read_ofObject_zero]
  | succ depth =>
    have huntagged := (untagged_split hkeys).2.2
    have huntagged' : untagged ([] ++ ("type", v) :: (before ++ after)) = [] ++ (before ++ after) :=
      (untagged_split hkeys').2.2
    simp only [List.nil_append] at huntagged'
    simp only [read_ofObject_iff hkeys, read_ofObject_iff hkeys', huntagged, huntagged',
      List.perm_middle.mem_iff]

/-- Reading a descriptor takes the members of an object in any order.  Only an `add`, which keeps all of
them, keeps their order too; the tag may stand anywhere; and nothing is read where the tag, or the
action of a store operation, is not one of those that are known. -/
theorem read_anyOrder (hkeys : (members.map Prod.fst).Nodup) (hperm : members.Perm members')
    (depth : Nat) :
    ((∃ d, read (m := Read) (Cursor.ofObject members depth) = .ok d) ↔
      ∃ d, read (m := Read) (Cursor.ofObject members' depth) = .ok d) ∧
    (∀ d d', read (m := Read) (Cursor.ofObject members depth) = .ok d →
      read (m := Read) (Cursor.ofObject members' depth) = .ok d' →
      d'.tag = d.tag ∧ (d.isExecutable = true → d' = d) ∧
      ∀ fields, d' = .add fields → fields.entries.map (fun f => (f.1, some f.2)) =
        (members'.filter fun e => e.1 ≠ "type").map fun e => (e.1, e.2.text?)) ∧
    (∀ before v after, members = before ++ ("type", v) :: after → ∀ d,
      read (m := Read) (Cursor.ofObject members depth) = .ok d ↔
        read (m := Read) (Cursor.ofObject (("type", v) :: (before ++ after)) depth) = .ok d) ∧
    ((∀ tag ∈ tags, ("type", .string (some tag)) ∉ members) →
      ¬ ∃ d, read (m := Read) (Cursor.ofObject members depth) = .ok d) ∧
    (("type", .string (some "db")) ∈ members →
      (∀ v, ("action", v) ∈ members → ∀ action : DbAction, ¬ v.Names action.name) →
      ¬ ∃ d, read (m := Read) (Cursor.ofObject members depth) = .ok d) := by
  have hkeys' : (members'.map Prod.fst).Nodup := (hperm.map Prod.fst).nodup_iff.1 hkeys
  refine ⟨⟨?_, ?_⟩, ?_, ?_, ?_, ?_⟩
  · rintro ⟨d, hd⟩
    obtain ⟨d', hd', -⟩ := read_perm hkeys hperm hd
    exact ⟨d', hd'⟩
  · rintro ⟨d', hd'⟩
    obtain ⟨d, hd, -⟩ := read_perm hkeys' hperm.symm hd'
    exact ⟨d, hd⟩
  · intro d d' hd hd'
    obtain ⟨e, he, htag, hsame⟩ := read_perm hkeys hperm hd
    obtain rfl : e = d' := Except.ok.inj (he.symm.trans hd')
    refine ⟨htag, hsame, ?_⟩
    rintro fields rfl
    exact read_add hkeys' hd'
  · rintro before v after rfl d
    exact read_moved_tag hkeys
  · rintro htype ⟨d, hd⟩
    exact htype d.tag d.tag_mem_tags (read_named hkeys hd).1
  · rintro htype haction ⟨d, hd⟩
    obtain ⟨htag, hnames⟩ := read_named hkeys hd
    have hdb : "db" = d.tag := by simpa using List.inj_on_of_nodup_map hkeys htype htag rfl
    cases d with
    | db access =>
      obtain ⟨v, hv, hname⟩ := hnames access rfl
      exact haction v hv access.action hname
    | _ => simp [tag] at hdb

def mixedFields : List (String × Node) := [("k", .number (some (.whole (-7)))),
  ("type", .string (some "add")), ("b", .boolean true), ("a", .string (some "$x"))]

def unknownAction : List (String × Node) :=
  [("pk", .null), ("action", .string (some "upsert")), ("type", .string (some "db"))]

theorem mixedFields_anyOrder :
    (∃ fields, read (m := Read) (Cursor.ofObject mixedFields.reverse maxDepth) = .ok (.add fields) ∧
      fields.entries = [("a", "$x"), ("b", "true"), ("k", "-7")]) ∧
    ¬ ∃ d, read (m := Read) (Cursor.ofObject unknownAction maxDepth) = .ok d := by
  constructor
  · have hkeys : (mixedFields.map Prod.fst).Nodup := by decide
    have hread : read (m := Read) (Cursor.ofObject mixedFields maxDepth) =
        .ok (.add (.ofList [("k", "-7"), ("b", "true"), ("a", "$x")])) := by decide +kernel
    obtain ⟨hiff, hsame, -⟩ := read_anyOrder hkeys (List.reverse_perm mixedFields).symm maxDepth
    obtain ⟨d, hd⟩ := hiff.1 ⟨_, hread⟩
    obtain ⟨htag, -, hadd⟩ := hsame _ d hread hd
    cases d with
    | add fields =>
      refine ⟨fields, hd, ?_⟩
      have hinj : Function.Injective fun f : String × String => (f.1, some f.2) := by
        rintro ⟨k, v⟩ ⟨k', v'⟩ h
        simpa using h
      apply hinj.list_map
      rw [hadd fields rfl]
      rfl
    | _ => simp [tag] at htag
  · have hkeys : (unknownAction.map Prod.fst).Nodup := by decide
    apply (read_anyOrder hkeys (.refl _) maxDepth).2.2.2.2 (by simp [unknownAction])
    intro v hv action hname
    obtain rfl : v = .string (some "upsert") := by simpa [unknownAction] using hv
    generalize hname' : action.name = name at hname
    cases hname
    cases action <;> simp [DbAction.name] at hname'

def keyedAction : List (String × Node) :=
  [("type", .string (some "db")), ("action", .object [(some "get", .null)] true)]

/-- An action that is no name but an object, with a name as its only key, is read as well. -/
theorem keyedAction_read :
    (keyedAction.map Prod.fst).Nodup ∧ ("type", .string (some "db")) ∈ keyedAction ∧
    (∀ action : DbAction, ("action", .string (some action.name)) ∉ keyedAction) ∧
    read (m := Read) (Cursor.ofObject keyedAction maxDepth) = .ok (.db { action := .get }) :=
  ⟨by decide, by simp [keyedAction], by simp [keyedAction], by decide +kernel⟩

end Descriptor

end ResolverPipeline
