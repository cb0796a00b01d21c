import ResolverPipeline.Load
import ResolverPipeline.Proofs.FieldMap
import ResolverPipeline.Proofs.Insertion
import ResolverPipeline.Proofs.JsonText
import ResolverPipeline.Proofs.Outcome

namespace ResolverPipeline

open Document

namespace Json

theorem ofItems_eq_map (items : List Tree) : Node.ofItems items = items.map Node.ofTree := by
  induction items with
  | nil => rfl
  | cons t rest ih => rw [Node.ofItems, ih, List.map_cons]

theorem ofMembers_eq_map (members : List (String × Tree)) :
    Node.ofMembers members = members.map fun e => (some e.1, Node.ofTree e.2) := by
  induction members with
  | nil => rfl
  | cons e rest ih => rw [Node.ofMembers, ih, List.map_cons]

namespace Cursor

def ofTree (t : Tree) (depth : Nat) : Cursor := ⟨Node.ofTree t, depth⟩

def ofMember (depth : Nat) (e : String × Tree) : Cursor × Cursor :=
  (ofTree (.text e.1) depth, ofTree e.2 depth)

theorem enterItems_ofItems (items : List Tree) (depth : Nat) :
    enterItems (depth + 1) (Node.ofItems items) true = .ok ⟨items.map (ofTree · depth), true⟩ := by
  rw [ofItems_eq_map, enterItems, List.map_map]
  rfl

theorem enterMembers_ofMembers (members : List (String × Tree)) (depth : Nat) :
    enterMembers (depth + 1) (Node.ofMembers members) true =
      .ok ⟨members.map (ofMember depth), true⟩ := by
  rw [ofMembers_eq_map, enterMembers, List.map_map]
  rfl

section Looking

variable {α σ : Type} (items : List Tree) (members : List (String × Tree)) (s expected : String)
  (depth : Nat)

@[simp] theorem within_eq (c : Cursor) (r : Read α) : within c r = r := rfl

@[simp] theorem shape_list :
    Source.shape (m := Read) (ofTree (.list items) (depth + 1)) =
      .ok (.sequence ⟨items.map (ofTree · depth), true⟩) :=
  congrArg (Functor.map Shape.sequence) (enterItems_ofItems items depth)

@[simp] theorem shape_record :
    Source.shape (m := Read) (ofTree (.record members) (depth + 1)) =
      .ok (.map ⟨members.map (ofMember depth), true⟩) :=
  congrArg (Functor.map Shape.map) (enterMembers_ofMembers members depth)

@[simp] theorem fields_record :
    Source.fields (m := Read) expected (ofTree (.record members) (depth + 1)) =
      .ok (.named ⟨members.map (ofMember depth), true⟩) :=
  congrArg (Functor.map Fields.named) (enterMembers_ofMembers members depth)

@[simp] theorem entries_record :
    Source.entries (m := Read) expected (ofTree (.record members) (depth + 1)) =
      .ok ⟨members.map (ofMember depth), true⟩ :=
  enterMembers_ofMembers members depth

@[simp] theorem text_text :
    Source.text (m := Read) expected (ofTree (.text s) depth) = .ok s := rfl

@[simp] theorem optional_text :
    Source.optional (m := Read) (ofTree (.text s) depth) = .ok (some (ofTree (.text s) depth)) := rfl

theorem foldEntries_ofMembers (key : String) (step : σ → String → Cursor → Read σ) (state : σ) :
    foldEntries key step state (members.map (ofMember depth)) =
      members.foldlM (fun state e => step state e.1 (ofTree e.2 depth)) state := by
  induction members generalizing state with
  | nil => rfl
  | cons e rest ih =>
    rw [List.map_cons, List.foldlM_cons, ofMember, foldEntries, text_text, except_ok_bind]
    exact bind_congr fun state' => ih state'

theorem buffer_text :
    Source.buffer (m := Read) expected (ofTree (.text s) depth) = .ok (.string s) := by
  cases depth <;> rfl

theorem buffer_fieldMap (m : FieldMap) :
    Node.buffer (depth + 1) (Node.ofTree (.ofFieldMap m)) =
      .ok (.map (m.entries.map fun e => (.string e.1, .string e.2))) := by
  have hmembers : ∀ es : List (String × String),
      Node.bufferMembers depth (Node.ofMembers (es.map fun e => (e.1, .text e.2))) =
        .ok (es.map fun e => (.string e.1, .string e.2)) := by
    intro es
    induction es with
    | nil => rfl
    | cons e rest ih =>
      simp only [List.map_cons, Node.ofMembers, Node.ofTree, Node.bufferMembers, ih]
      cases depth <;> rfl
  simp only [Tree.ofFieldMap, Node.ofTree, Node.buffer, hmembers]
  rfl

end Looking

end Cursor

end Json

section Descriptors

open Json

/-- That no `add` field is named like the tag. -/
def Descriptor.TypeFree : Descriptor → Prop
  | .add fields => "type" ∉ fields.keys
  | _ => True

structure Taken (depth : Nat) (e : String × Tree) (taken : Datum × Datum) : Prop where
  key_ne : e.1 ≠ "type"
  key_eq : taken.1 = .string e.1
  value_eq : Node.buffer depth (Node.ofTree e.2) = .ok taken.2

def takenEntries (es : List (String × String)) : List (Datum × Datum) :=
  es.map fun e => (.string e.1, .string e.2)

theorem taken_text {depth : Nat} {name : String} (h : name ≠ "type") (s : String) :
    Taken depth (name, .text s) (.string name, .string s) :=
  ⟨h, rfl, by cases depth <;> rfl⟩

theorem taken_fieldMap {depth : Nat} {name : String} (h : name ≠ "type") (m : FieldMap) :
    Taken (depth + 1) (name, .ofFieldMap m) (.string name, .map (takenEntries m.entries)) :=
  ⟨h, rfl, Cursor.buffer_fieldMap depth m⟩

def takenOption (name : String) (value : Option String) : List (Datum × Datum) :=
  value.toList.map fun s => (.string name, .string s)

theorem taken_optional {depth : Nat} {name : String} (h : name ≠ "type") (value : Option String) :
    List.Forall₂ (Taken depth) (Tree.optional name (value.map .text)) (takenOption name value) := by
  cases value with
  | none => exact .nil
  | some s => exact .cons (taken_text h s) .nil

theorem readMembers_taken {depth : Nat} {members : List (String × Tree)}
    {taken : List (Datum × Datum)} (h : List.Forall₂ (Taken depth) members taken)
    (tag : Option String) (seen : List (Datum × Datum)) :
    Descriptor.readMembers (m := Json.Read) tag seen (members.map (Cursor.ofMember depth)) =
      .ok (tag, seen.reverse ++ taken) := by
  induction h generalizing seen with
  | nil => simp [Descriptor.readMembers]
  | @cons e d members taken he hrest ih =>
    obtain ⟨key, value⟩ := d
    obtain rfl : key = .string e.1 := he.key_eq
    have hvalue : Source.buffer (m := Json.Read) "any value" (Cursor.ofTree e.2 depth) =
        .ok value := he.value_eq
    rw [List.map_cons, Cursor.ofMember, Descriptor.readMembers, Cursor.buffer_text, except_ok_bind]
    split
    · rename_i htype
      exact absurd (Datum.string.inj htype) he.key_ne
    · rw [hvalue, except_ok_bind, ih]
      simp

theorem readEntries_taken {depth : Nat} {tag : String} {members : List (String × Tree)}
    {taken : List (Datum × Datum)} (htag : tag ∈ Descriptor.tags)
    (h : List.Forall₂ (Taken depth) members taken) :
    Descriptor.readEntries (m := Json.Read)
        ⟨(("type", .text tag) :: members).map (Cursor.ofMember depth), true⟩ =
      .ok (tag, .members taken) := by
  have hread : Descriptor.readTag (m := Json.Read) (Cursor.ofTree (.text tag) depth) = .ok tag := by
    simp [Descriptor.readTag, knownName, htag, lift]
  have hmembers : Descriptor.readMembers (m := Json.Read) none []
      ((("type", .text tag) :: members).map (Cursor.ofMember depth)) = .ok (some tag, taken) := by
    rw [List.map_cons, Cursor.ofMember, Descriptor.readMembers, Cursor.buffer_text, except_ok_bind]
    simp [once, hread, readMembers_taken h]
  rw [Descriptor.readEntries, hmembers]
  rfl

@[simp] theorem rawPairs_takenEntries (es : List (String × String)) :
    rawPairs (takenEntries es) = .ok es := by
  induction es with
  | nil => rfl
  | cons e rest ih =>
    rw [takenEntries] at ih
    simp [takenEntries, rawPairs, Datum.text, Datum.raw, Datum.found, rawText, Found.asText?, ih]

theorem checkKeys_takenEntries (es : List (String × String)) :
    Descriptor.checkKeys (takenEntries es) = .ok () := by
  induction es with
  | nil => rfl
  | cons e rest ih => exact ih

theorem Descriptor.tag_mem_tags (d : Descriptor) : d.tag ∈ tags := by
  cases d <;> simp [tag, tags]

theorem readEntries_ofDescriptor {d : Descriptor} (h : d.TypeFree) (depth : Nat) :
    ∃ members content, Tree.ofDescriptor d = .record members ∧
      Descriptor.readEntries (m := Json.Read) ⟨members.map (Cursor.ofMember (depth + 1)), true⟩ =
        .ok (d.tag, content) ∧ Descriptor.ofContent d.tag content = .ok d := by
  cases d with
  | add fields =>
    refine ⟨_, .members (takenEntries fields.entries), rfl,
      readEntries_taken (Descriptor.tag_mem_tags _) ?_, ?_⟩
    · rw [takenEntries, List.forall₂_map_left_iff, List.forall₂_map_right_iff, List.forall₂_same]
      intro e he
      exact taken_text (fun htype => h (htype ▸ List.mem_map_of_mem he)) e.2
    · simp [Descriptor.tag, Descriptor.ofContent, Descriptor.readAdd, checkKeys_takenEntries]
  | guard pk sk =>
    exact ⟨_, _, rfl, readEntries_taken (Descriptor.tag_mem_tags _)
      (.cons (taken_text (by decide) pk) (.cons (taken_text (by decide) sk) .nil)), rfl⟩
  | db access =>
    obtain ⟨action, pk, sk⟩ := access
    refine ⟨_, .members ([(.string "action", .string action.name)] ++ takenOption "pk" pk ++
      takenOption "sk" sk), rfl, readEntries_taken (Descriptor.tag_mem_tags _) ?_, ?_⟩
    · exact List.rel_append (List.rel_append (.cons (taken_text (by decide) action.name) .nil)
        (taken_optional (by decide) pk)) (taken_optional (by decide) sk)
    · cases action <;> cases pk <;> cases sk <;> rfl
  | emit event data =>
    have hdata : Datum.fieldMap (.map (takenEntries data.entries)) = .ok data := by
      simp [Datum.fieldMap]
    refine ⟨_, _, rfl, readEntries_taken (Descriptor.tag_mem_tags _)
      (.cons (taken_text (by decide) event) (.cons (taken_fieldMap (by decide) data) .nil)), ?_⟩
    simp [Descriptor.tag, Descriptor.ofContent, Descriptor.readEmit, namedFields, Datum.fieldName,
      Descriptor.emitField, onceOf, Datum.text, hdata, requireOf]

theorem read_ofDescriptor {d : Descriptor} (h : d.TypeFree) (depth : Nat) :
    Descriptor.read (m := Json.Read) (Cursor.ofTree (.ofDescriptor d) (depth + 2)) = .ok d := by
  obtain ⟨members, content, hd, hentries, hcontent⟩ := readEntries_ofDescriptor h depth
  simp [Descriptor.read, Descriptor.readTagged, hd, hentries, hcontent, lift]

end Descriptors

section Definitions

open Json

def Resolver.descriptors : Resolver → List Descriptor
  | .single d => [d]
  | .pipeline ds => ds

def Resolver.TypeFree (r : Resolver) : Prop := ∀ d ∈ r.descriptors, d.TypeFree

def Resolvers.TypeFree (r : Resolvers) : Prop := ∀ e ∈ r.fields, e.2.2.TypeFree

def Definition.TypeFree (d : Definition) : Prop := d.resolvers.TypeFree

def TypeFreeGroup (fields : SortedMap Resolver) : Prop := ∀ e ∈ fields.entries, e.2.TypeFree

theorem Resolvers.typeFree_iff {r : Resolvers} :
    r.TypeFree ↔ TypeFreeGroup r.query ∧ TypeFreeGroup r.mutation := by
  unfold TypeFree TypeFreeGroup
  rw [fields, List.forall_mem_append, List.forall_mem_map, List.forall_mem_map]

theorem readItems_map {α : Type} {read : Cursor → Json.Read α} {write : α → Cursor} {as : List α}
    (h : ∀ a ∈ as, read (write a) = .ok a) : readItems read (as.map write) = .ok as := by
  induction as with
  | nil => rfl
  | cons a rest ih =>
    rw [List.forall_mem_cons] at h
    rw [List.map_cons, readItems, h.1, except_ok_bind, ih h.2]
    rfl

theorem foldlM_ok {α σ : Type} {step : σ → α → Json.Read σ} {next : σ → α → σ} {as : List α}
    (h : ∀ a ∈ as, ∀ s, step s a = .ok (next s a)) (s : σ) :
    as.foldlM step s = .ok (as.foldl next s) := by
  induction as generalizing s with
  | nil => rfl
  | cons a rest ih =>
    rw [List.forall_mem_cons] at h
    rw [List.foldlM_cons, h.1, except_ok_bind, ih h.2, List.foldl_cons]

theorem read_ofResolver {r : Resolver} (h : r.TypeFree) (depth : Nat) :
    Resolver.read (m := Json.Read) (Cursor.ofTree (.ofResolver r) (depth + 3)) = .ok r := by
  cases r with
  | single d =>
    obtain ⟨members, content, hd, hentries, hcontent⟩ :=
      readEntries_ofDescriptor (h d List.mem_cons_self) (depth + 1)
    simp [Resolver.read, Tree.ofResolver, hd, hentries, hcontent, lift]
  | pipeline ds =>
    have hitems : readItems (m := Json.Read) Descriptor.read
        (ds.map fun d => Cursor.ofTree (.ofDescriptor d) (depth + 2)) = .ok ds :=
      readItems_map fun d hd => read_ofDescriptor (h d hd) depth
    have hcursors : (ds.map Tree.ofDescriptor).map (Cursor.ofTree · (depth + 2)) =
        ds.map fun d => Cursor.ofTree (.ofDescriptor d) (depth + 2) := List.map_map
    simp [Resolver.read, Tree.ofResolver, hcursors, hitems, checkClosed]

def writtenGroup (fields : SortedMap Resolver) : Tree :=
  .record (fields.entries.map fun e => (e.1, .ofResolver e.2))

theorem foldEntries_insert {α : Type} {read : Cursor → Json.Read α} {write : α → Tree}
    {m : SortedMap α} {depth : Nat}
    (h : ∀ e ∈ m.entries, read (Cursor.ofTree (write e.2) depth) = .ok e.2) :
    foldEntries "a string" (fun met name v => return met.insert name (← read v)) SortedMap.empty
      ((m.entries.map fun e => (e.1, write e.2)).map (Cursor.ofMember depth)) = .ok m := by
  have hstep : ∀ e ∈ m.entries, ∀ met : SortedMap α,
      (return met.insert e.1 (← read (Cursor.ofTree (write e.2) depth)) : Json.Read _) =
        .ok (met.insert e.1 e.2) := by
    intro e he met
    rw [h e he, except_ok_bind, except_pure]
  rw [Cursor.foldEntries_ofMembers, List.foldlM_map]
  exact (foldlM_ok hstep .empty).trans (congrArg Except.ok m.ofList_entries)

theorem readGroup_writtenGroup {fields : SortedMap Resolver} (h : TypeFreeGroup fields)
    (depth : Nat) :
    Resolver.readGroup (m := Json.Read) (Cursor.ofTree (writtenGroup fields) (depth + 4)) =
      .ok fields := by
  have hfold := foldEntries_insert fun e he => read_ofResolver (h e he) depth
  rw [Resolver.readGroup, writtenGroup, Cursor.entries_record, except_ok_bind, Cursor.within_eq,
    hfold]
  rfl

def metGroup (fields : SortedMap Resolver) : Option (SortedMap Resolver) :=
  if fields.isEmpty then none else some fields

theorem getD_metGroup (fields : SortedMap Resolver) : (metGroup fields).getD .empty = fields := by
  unfold metGroup
  split
  · rename_i hempty
    exact SortedMap.ext (List.isEmpty_iff.1 hempty).symm
  · rfl

theorem read_ofResolvers {r : Resolvers} (h : r.TypeFree) (depth : Nat) :
    Resolvers.read (m := Json.Read) (Cursor.ofTree (.ofResolvers r) (depth + 5)) = .ok r := by
  rw [Resolvers.typeFree_iff] at h
  have hquery : (Tree.ofResolvers.group "Query" r.query).foldlM
      (fun s e => Resolvers.readField (m := Json.Read) s e.1 (Cursor.ofTree e.2 (depth + 4))) {} =
        .ok { query := metGroup r.query } := by
    have hread := readGroup_writtenGroup h.1 depth
    unfold Tree.ofResolvers.group metGroup
    split
    · rfl
    · rw [List.foldlM_cons, Resolvers.readField, ← writtenGroup, once, hread]
      rfl
  have hmutation : ∀ query, (Tree.ofResolvers.group "Mutation" r.mutation).foldlM
      (fun s e => Resolvers.readField (m := Json.Read) s e.1 (Cursor.ofTree e.2 (depth + 4)))
        { query } = .ok ⟨query, metGroup r.mutation⟩ := by
    intro query
    have hread := readGroup_writtenGroup h.2 depth
    unfold Tree.ofResolvers.group metGroup
    split
    · rfl
    · rw [List.foldlM_cons, Resolvers.readField, ← writtenGroup, once, hread]
      rfl
  simp [Resolvers.read, Tree.ofResolvers, Operation.name, Cursor.foldEntries_ofMembers,
    -List.map_append, hquery, hmutation, checkClosed, getD_metGroup]

theorem read_ofConfig (c : AppConfig) (depth : Nat) :
    AppConfig.read (m := Json.Read) (Cursor.ofTree (.ofConfig c) (depth + 1)) = .ok c := by
  obtain ⟨name, eventbus, region⟩ := c
  cases eventbus <;> cases region <;> rfl

theorem read_ofDefinition {d : Definition} (h : d.TypeFree) (depth : Nat) :
    Definition.read (m := Json.Read) (Cursor.ofTree (.ofDefinition d) (depth + 6)) = .ok d := by
  have hfold : [("schema", Tree.text d.schema), ("resolvers", .ofResolvers d.resolvers),
      ("config", .ofConfig d.config)].foldlM
        (fun s e => Definition.readField (m := Json.Read) s e.1 (Cursor.ofTree e.2 (depth + 5))) {} =
      .ok ⟨some d.schema, some d.resolvers, some d.config⟩ := by
    simp [Definition.readField, once, read_ofResolvers h depth, read_ofConfig]
  rw [Definition.read, Tree.ofDefinition, Cursor.fields_record, except_ok_bind, Cursor.within_eq]
  simp only [Cursor.foldEntries_ofMembers, hfold]
  rfl

/-- A definition is read back from any text that stands for it. -/
theorem Definition.parse_writes {d : Definition} (h : d.TypeFree) {s : String}
    (hs : Writes s (Token.ofTree (.ofDefinition d))) : parse .json s = .ok d := by
  have hread : Json.read Definition.read s = .ok d := by
    rw [Json.read, hs.ofText]
    exact bind_eq_ok.2 ⟨d, read_ofDefinition h 121, rfl⟩
  rw [parse, Format.read, hread, mapError_ok]

theorem Definition.parse_compact {d : Definition} (h : d.TypeFree) :
    parse .json (compact (.ofDefinition d)) = .ok d :=
  parse_writes h (writes_compact _)

theorem Definition.parse_indented {d : Definition} (h : d.TypeFree) :
    parse .json (indented 0 (.ofDefinition d)) = .ok d :=
  parse_writes h (writes_indented 0 _)

end Definitions

end ResolverPipeline
