import ResolverPipeline.Proofs.RoundTrip

/-!
No definition that is read has an `add` field named like the tag, so writing it as JSON loses nothing:
what is written is a normal form of the text that was read.
-/

namespace ResolverPipeline

open Document

namespace Document

class LawfulFailure (m : Type → Type) [Monad m] [MonadExceptOf Problem m] : Prop
    extends LawfulMonad m where
  map_throw {α β : Type} (f : α → β) (p : Problem) : f <$> (throw p : m α) = throw p

/-- Sources that place faults without regard to the value that is read. -/
class LawfulSource (ν : Type) (m : Type → Type) [Monad m] [Source ν m] : Prop where
  map_within {α β : Type} (f : α → β) (v : ν) (r : m α) :
    f <$> within v r = within v (f <$> r)

instance : LawfulFailure Json.Read where
  map_throw _ _ := rfl

instance : LawfulSource Json.Cursor Json.Read where
  map_within _ _ _ := rfl

instance : LawfulFailure Yaml.Read where
  map_throw _ _ := rfl

instance : LawfulSource Yaml.Cursor Yaml.Read where
  map_within f c r := by
    funext context jumps
    change ((r context jumps).mapError _ >>= _) = (r context jumps >>= _).mapError _
    cases r context jumps <;> rfl

/-- That a computation, where it gives a value, gives one of which this holds. -/
def Gives {m : Type → Type} [Monad m] {α : Type} (p : α → Prop) (x : m α) : Prop :=
  ∃ x' : m { a // p a }, Subtype.val <$> x' = x

namespace Gives

section

variable {m : Type → Type} [Monad m] [LawfulMonad m] {α β : Type} {p : α → Prop} {q : β → Prop}
  {x : m α} {f : α → m β}

protected theorem pure {a : α} (h : p a) : Gives p (pure a : m α) :=
  ⟨pure ⟨a, h⟩, map_pure _ _⟩

protected theorem trivial : Gives (fun _ => True) x :=
  ⟨(⟨·, trivial⟩) <$> x, by rw [Functor.map_map, id_map']⟩

protected theorem bind (hx : Gives p x) (hf : ∀ a, p a → Gives q (f a)) : Gives q (x >>= f) := by
  obtain ⟨x', rfl⟩ := hx
  choose f' hf' using hf
  refine ⟨x' >>= fun a => f' a.1 a.2, ?_⟩
  simp only [map_bind, bind_map_left, hf']

protected theorem map {g : α → β} (hx : Gives p x) (hg : ∀ {a}, p a → q (g a)) :
    Gives q (g <$> x) := by
  rw [map_eq_pure_bind]
  exact hx.bind fun a ha => .pure (hg ha)

end

theorem of_ok {ε α : Type} {p : α → Prop} {x : Except ε α} {a : α} (h : Gives p x)
    (hx : x = .ok a) : p a := by
  obtain ⟨x', rfl⟩ := h
  obtain ⟨a', -, rfl⟩ := map_eq_ok.1 hx
  exact a'.2

theorem of_run_ok {ρ σ ε α : Type} {p : α → Prop} {x : ReaderT ρ (StateT σ (Except ε)) α} {r : ρ}
    {s s' : σ} {a : α} (h : Gives p x) (hx : x r s = .ok (a, s')) : p a := by
  obtain ⟨x', rfl⟩ := h
  change (x' r s >>= _) = _ at hx
  obtain ⟨⟨a', _⟩, -, ha⟩ := bind_eq_ok.1 hx
  cases ha
  exact a'.2

end Gives

theorem gives_then {m : Type → Type} [Monad m] [LawfulMonad m] {α β : Type} {p : β → Prop}
    {x : m α} {f : α → m β} (h : ∀ a, Gives p (f a)) : Gives p (x >>= f) :=
  Gives.trivial.bind fun a _ => h a

theorem gives_error {ε α : Type} {p : α → Prop} (e : ε) :
    Gives p (.error e : Except ε α) :=
  ⟨.error e, rfl⟩

theorem gives_within {ν α : Type} {m : Type → Type} [Monad m] [Source ν m] [LawfulSource ν m]
    {p : α → Prop} (v : ν) {r : m α} (h : Gives p r) : Gives p (within v r) := by
  obtain ⟨r', rfl⟩ := h
  exact ⟨within v r', LawfulSource.map_within _ v r'⟩

section Readers

variable {ν : Type} {m : Type → Type} [Monad m] [MonadExceptOf Problem m] [LawfulFailure m]
  {α σ : Type} {p : α → Prop}

theorem gives_throw (e : Problem) : Gives p (throw e : m α) :=
  ⟨throw e, LawfulFailure.map_throw _ e⟩

theorem gives_lift {x : Except Fault α} (h : ∀ a, x = .ok a → p a) :
    Gives p (lift x : m α) := by
  cases x with
  | ok a => exact .pure (h a rfl)
  | error f => exact gives_throw _

theorem gives_once (name : String) (seen : Option α) {read : m α} (h : Gives p read) :
    Gives (fun o => ∀ a ∈ o, p a) (once name seen read) := by
  unfold once
  split
  · exact gives_throw _
  · exact h.map fun ha a' ha' => Option.some.inj ha' ▸ ha

theorem gives_readItems {read : ν → m α} (h : ∀ v, Gives p (read v)) (vs : List ν) :
    Gives (fun as => ∀ a ∈ as, p a) (readItems read vs) := by
  induction vs with
  | nil => exact .pure (List.forall_mem_nil p)
  | cons v rest ih =>
    exact (h v).bind fun a ha => ih.bind fun as has => .pure (List.forall_mem_cons.2 ⟨ha, has⟩)

theorem Items.gives_optional {is : Items ν} {default : α} {read : ν → m α}
    (hdefault : p default) (h : ∀ v, Gives p (read v)) :
    Gives (p ·.1) (is.optional default read) := by
  unfold Items.optional
  split
  · exact (h _).bind fun a ha => .pure ha
  · split
    · exact .pure hdefault
    · exact gives_throw _

theorem gives_foldEntries [Source ν m] {p : σ → Prop} {key : String}
    {step : σ → String → ν → m σ} (h : ∀ s name v, p s → Gives p (step s name v)) {s : σ}
    (hs : p s) (es : List (ν × ν)) : Gives p (foldEntries key step s es) := by
  induction es generalizing s with
  | nil => exact .pure hs
  | cons e rest ih =>
    exact gives_then fun name => (h s name e.2 hs).bind fun s' hs' => ih hs'

end Readers

end Document

section Formats

variable {α : Type} {p : α → Prop} {text : String} {a : α}

theorem Json.read_satisfies {value : Cursor → Read α} (h : ∀ c, Gives p (value c))
    (hread : read value text = .ok a) : p a := by
  obtain ⟨a', ha', hend⟩ := bind_eq_ok.1 hread
  have hp : p a' := (h _).of_ok ha'
  split at hend
  · cases hend
    exact hp
  · cases hend

theorem Yaml.read_satisfies {value : Cursor → Read α} (h : ∀ c, Gives p (value c))
    (hread : read value text = .ok a) : p a := by
  obtain ⟨⟨a', jumps⟩, ha', hend⟩ := bind_eq_ok.1 hread
  have hp : p a' := (h _).of_run_ok ha'
  simp only at hend
  split at hend
  · cases hend
    exact hp
  · cases hend

theorem Format.read_satisfies {format : Format} {value : Reader α}
    (h : ∀ {ν : Type} {m : Type → Type} [Monad m] [MonadExceptOf Problem m] [Source ν m]
      [LawfulFailure m] [LawfulSource ν m] (v : ν), Gives p (value (m := m) v))
    (hread : format.read value text = .ok a) : p a := by
  cases format with
  | json => exact Json.read_satisfies (fun c => h c) hread
  | yaml => exact Yaml.read_satisfies (fun c => h c) hread

end Formats

section Contents

def Document.Content.TypeFree : Content → Prop
  | .members entries => ∀ e ∈ entries, e.1 ≠ .string "type"
  | .elements _ => True

theorem mem_rawPairs {entries : List (Datum × Datum)} {pairs : List (String × String)}
    (h : rawPairs entries = .ok pairs) {e : String × String} (he : e ∈ pairs) :
    ∃ v, (.string e.1, v) ∈ entries := by
  induction entries generalizing pairs with
  | nil =>
    cases h
    cases he
  | cons kv rest ih =>
    obtain ⟨k, v⟩ := kv
    obtain ⟨key, hkey, h⟩ := bind_eq_ok.1 h
    obtain ⟨value, -, h⟩ := bind_eq_ok.1 h
    obtain ⟨others, hothers, h⟩ := bind_eq_ok.1 h
    cases h
    rcases List.mem_cons.1 he with rfl | he
    · cases k with
      | string s =>
        cases hkey
        exact ⟨v, List.mem_cons_self⟩
      | _ => cases hkey
    · obtain ⟨v', hv'⟩ := ih hothers he
      exact ⟨v', List.mem_cons_of_mem _ hv'⟩

theorem Descriptor.typeFree_of_isExecutable {d : Descriptor} (h : d.isExecutable = true) :
    d.TypeFree := by
  cases d with
  | add => cases h
  | _ => trivial

theorem Descriptor.readAdd_typeFree {content : Content} (hc : content.TypeFree) {d : Descriptor}
    (h : readAdd content = .ok d) : d.TypeFree := by
  cases content with
  | elements items => cases h
  | members entries =>
    obtain ⟨-, -, h⟩ := bind_eq_ok.1 h
    obtain ⟨pairs, hpairs, h⟩ := bind_eq_ok.1 h
    cases h
    intro htype
    obtain ⟨e, he, hkey⟩ := List.mem_map.1 htype
    obtain ⟨v, hv⟩ := mem_rawPairs hpairs (FieldMap.mem_of_mem_ofList he)
    exact hc _ hv (congrArg Datum.string hkey)

theorem Descriptor.readGuard_isExecutable (content : Content) :
    Gives (·.isExecutable = true) (readGuard content) := by
  unfold readGuard
  split
  · exact gives_then fun s => gives_then fun pk => gives_then fun sk => .pure rfl
  · split
    · exact gives_error _
    · exact gives_then fun pk => gives_error _
    · exact gives_then fun pk => gives_then fun sk => gives_then fun _ => .pure rfl

theorem Descriptor.readDb_isExecutable (content : Content) :
    Gives (·.isExecutable = true) (readDb content) := by
  unfold readDb
  split
  · exact gives_then fun s => gives_then fun action => .pure rfl
  · split
    · exact gives_error _
    · exact gives_then fun action => .pure rfl
    · exact gives_then fun action => gives_then fun pk => .pure rfl
    · exact gives_then fun action => gives_then fun pk => gives_then fun sk =>
        gives_then fun _ => .pure rfl

theorem Descriptor.readEmit_isExecutable (content : Content) :
    Gives (·.isExecutable = true) (readEmit content) := by
  unfold readEmit
  split
  · exact gives_then fun s => gives_then fun event => .pure rfl
  · split
    · exact gives_error _
    · exact gives_then fun event => .pure rfl
    · exact gives_then fun event => gives_then fun data => gives_then fun _ =>
        .pure rfl

theorem Descriptor.ofContent_typeFree {tag : String} {content : Content} (hc : content.TypeFree)
    {d : Descriptor} (h : ofContent tag content = .ok d) : d.TypeFree := by
  unfold ofContent at h
  split at h
  · exact readAdd_typeFree hc h
  · exact typeFree_of_isExecutable ((readGuard_isExecutable _).of_ok h)
  · exact typeFree_of_isExecutable ((readDb_isExecutable _).of_ok h)
  · exact typeFree_of_isExecutable ((readEmit_isExecutable _).of_ok h)
  · cases h

end Contents

section Documents

variable {ν : Type} {m : Type → Type} [Monad m] [MonadExceptOf Problem m] [Source ν m]
  [LawfulFailure m]

namespace Descriptor

theorem readMembers_typeFree (es : List (ν × ν)) {tag : Option String}
    {seen : List (Datum × Datum)} (h : ∀ e ∈ seen, e.1 ≠ .string "type") :
    Gives (fun r => ∀ e ∈ r.2, e.1 ≠ .string "type") (readMembers (m := m) tag seen es) := by
  induction es generalizing tag seen with
  | nil => exact .pure fun e he => h e (List.mem_reverse.1 he)
  | cons kv rest ih =>
    refine gives_then fun key => ?_
    split
    · exact gives_then fun tag => ih h
    · rename_i hkey
      have hne : key ≠ .string "type" := by
        rintro rfl
        exact hkey rfl
      exact gives_then fun value => ih (List.forall_mem_cons.2 ⟨hne, h⟩)

theorem readEntries_typeFree (es : Entries ν) :
    Gives (·.2.TypeFree) (readEntries (m := m) es) := by
  refine (readMembers_typeFree es.pairs (List.forall_mem_nil _)).bind fun r hr => ?_
  exact gives_then fun _ => gives_then fun tag => .pure hr

theorem readElements_typeFree (is : Items ν) :
    Gives (·.2.TypeFree) (readElements (m := m) is) := by
  unfold readElements
  split
  · exact gives_then fun _ => gives_throw _
  · exact gives_then fun tag => gives_then fun items => gives_then fun _ =>
      .pure trivial

variable [LawfulSource ν m]

theorem readTagged_typeFree (v : ν) : Gives (·.2.TypeFree) (readTagged (m := m) v) := by
  refine gives_then fun s => gives_within v ?_
  cases s with
  | scalar f => exact gives_throw _
  | sequence is => exact readElements_typeFree is
  | map es => exact readEntries_typeFree es

theorem read_typeFree (v : ν) : Gives TypeFree (read (m := m) v) :=
  (readTagged_typeFree v).bind fun _ hc => gives_lift fun _ hd => ofContent_typeFree hc hd

end Descriptor

variable [LawfulSource ν m]

namespace Resolver

theorem read_typeFree (v : ν) : Gives TypeFree (read (m := m) v) := by
  refine gives_then fun s => gives_within v ?_
  cases s with
  | scalar f => exact gives_throw _
  | map es =>
    refine (Descriptor.readEntries_typeFree es).bind fun r hr => ?_
    refine Gives.bind (p := Descriptor.TypeFree) ?_ fun d hd => .pure ?_
    · exact gives_lift fun d hd => Descriptor.ofContent_typeFree hr hd
    · exact List.forall_mem_singleton.2 hd
  | sequence is =>
    refine (gives_readItems Descriptor.read_typeFree is.nodes).bind fun ds hds => ?_
    exact gives_then fun _ => .pure hds

theorem readGroup_typeFree (v : ν) :
    Gives TypeFreeGroup (readGroup (m := m) v) := by
  refine gives_then fun es => gives_within v ?_
  refine (gives_foldEntries ?_ (List.forall_mem_nil _) es.pairs).bind fun fields hfields =>
    gives_then fun _ => .pure hfields
  intro fields name v hfields
  refine (read_typeFree v).bind fun r hr => .pure fun e he => ?_
  rcases mem_putSorted he with rfl | he
  · exact hr
  · exact hfields e he

end Resolver

namespace Resolvers

def Parts.TypeFree (s : Parts) : Prop :=
  (∀ fields ∈ s.query, TypeFreeGroup fields) ∧ ∀ fields ∈ s.mutation, TypeFreeGroup fields

theorem readField_typeFree {s : Parts} (hs : s.TypeFree) (name : String) (v : ν) :
    Gives Parts.TypeFree (readField (m := m) s name v) := by
  unfold readField
  split
  · exact (gives_once _ _ (Resolver.readGroup_typeFree v)).bind fun query hquery =>
      .pure ⟨hquery, hs.2⟩
  · exact (gives_once _ _ (Resolver.readGroup_typeFree v)).bind fun mutation hmutation =>
      .pure ⟨hs.1, hmutation⟩
  · exact gives_then fun _ => .pure hs

theorem typeFreeGroup_empty : TypeFreeGroup .empty := List.forall_mem_nil _

theorem typeFreeGroup_getD {met : Option (SortedMap Resolver)}
    (h : ∀ fields ∈ met, TypeFreeGroup fields) : TypeFreeGroup (met.getD .empty) := by
  cases met with
  | none => exact typeFreeGroup_empty
  | some fields => exact h fields rfl

theorem read_typeFree (v : ν) : Gives TypeFree (read (m := m) v) := by
  refine gives_then fun fields => gives_within v ?_
  cases fields with
  | named es =>
    have hnone : Parts.TypeFree {} := ⟨nofun, nofun⟩
    refine (gives_foldEntries (fun s name v hs => readField_typeFree hs name v) hnone
      es.pairs).bind fun s hs => gives_then fun _ => .pure ?_
    exact typeFree_iff.2 ⟨typeFreeGroup_getD hs.1, typeFreeGroup_getD hs.2⟩
  | positional is =>
    have hgroup (is : Items ν) :
        Gives (TypeFreeGroup ·.1) (is.optional (m := m) .empty Resolver.readGroup) :=
      is.gives_optional typeFreeGroup_empty Resolver.readGroup_typeFree
    refine (hgroup is).bind fun query hquery => ?_
    refine (hgroup query.2).bind fun mutation hmutation => gives_then fun _ => .pure ?_
    exact typeFree_iff.2 ⟨hquery, hmutation⟩

end Resolvers

namespace Definition

theorem readField_typeFree {s : Parts} (hs : ∀ r ∈ s.resolvers, r.TypeFree) (name : String)
    (v : ν) :
    Gives (fun s => ∀ r ∈ s.resolvers, r.TypeFree) (readField (m := m) s name v) := by
  unfold readField
  split
  · exact gives_then fun schema => .pure hs
  · exact (gives_once _ _ (Resolvers.read_typeFree v)).bind fun resolvers hresolvers =>
      .pure hresolvers
  · exact gives_then fun config => .pure hs
  · exact gives_then fun _ => .pure hs

theorem read_typeFree (v : ν) : Gives TypeFree (read (m := m) v) := by
  have hdefault : Resolvers.TypeFree {} := List.forall_mem_nil _
  refine gives_then fun fields => gives_within v ?_
  cases fields with
  | named es =>
    have hnone : ∀ r ∈ Parts.resolvers {}, r.TypeFree := nofun
    refine (gives_foldEntries (fun s name v hs => readField_typeFree hs name v) hnone
      es.pairs).bind fun s hs => gives_then fun _ => gives_then fun schema =>
        gives_then fun config => .pure ?_
    unfold TypeFree
    cases hr : s.resolvers with
    | none => exact hdefault
    | some r => exact hs r hr
  | positional is =>
    refine gives_then fun schema => ?_
    refine (Items.gives_optional hdefault Resolvers.read_typeFree).bind
      fun resolvers hresolvers => ?_
    exact gives_then fun config => gives_then fun _ => .pure hresolvers

end Definition

end Documents

theorem Definition.parse_typeFree {format : Format} {text : String} {d : Definition}
    (h : parse format text = .ok d) : d.TypeFree :=
  format.read_satisfies (fun v => read_typeFree v) (mapError_eq_ok.1 h)

section Layout

namespace Json.Node

mutual

def textual : Node → Bool
  | .string (some _) => true
  | .array items closed => textualItems items && closed
  | .object members closed => textualMembers members && closed
  | _ => false

def textualItems : List Node → Bool
  | [] => true
  | n :: rest => textual n && textualItems rest

def textualMembers : List (Option String × Node) → Bool
  | [] => true
  | (_, n) :: rest => textual n && textualMembers rest

end

mutual

theorem textual_ofTree : ∀ t : Tree, (ofTree t).textual = true
  | .text s => rfl
  | .list items => by simp [ofTree, textual, textualItems_ofItems items]
  | .record members => by simp [ofTree, textual, textualMembers_ofMembers members]

theorem textualItems_ofItems : ∀ items : List Tree, textualItems (ofItems items) = true
  | [] => rfl
  | t :: rest => by simp [ofItems, textualItems, textual_ofTree t, textualItems_ofItems rest]

theorem textualMembers_ofMembers : ∀ members : List (String × Tree),
    textualMembers (ofMembers members) = true
  | [] => rfl
  | (name, t) :: rest => by
    simp [ofMembers, textualMembers, textual_ofTree t, textualMembers_ofMembers rest]

end

end Json.Node

/-- How a definition is laid out: its operations with the fields of each, and its settings. -/
structure Definition.Layout (d : Definition) (groups settings : List (String × Tree)) : Prop where
  operations : groups.map Prod.fst =
    (Operation.all.filter fun o => !(d.resolvers.group o).isEmpty).map Operation.name
  fields : ∀ g ∈ groups, ∃ fields, g.2 = .record fields ∧ fields ≠ [] ∧
    fields.Pairwise (·.1 < ·.1)
  settings : settings.map Prod.fst =
    ["name"] ++ d.config.eventbus.toList.map (fun _ => "eventbus") ++
      d.config.region.toList.map fun _ => "region"

theorem mem_group {name : String} {fields : SortedMap Resolver} {g : String × Tree}
    (h : g ∈ Tree.ofResolvers.group name fields) :
    ∃ members, g.2 = .record members ∧ members ≠ [] ∧ members.Pairwise (·.1 < ·.1) := by
  unfold Tree.ofResolvers.group at h
  split at h
  · cases h
  · rename_i hne
    obtain rfl := List.mem_singleton.1 h
    refine ⟨_, rfl, ?_, ?_⟩
    · intro hnil
      exact hne (List.isEmpty_iff.2 (List.map_eq_nil_iff.1 hnil))
    · rw [List.pairwise_map]
      exact fields.sorted

theorem Definition.layout (d : Definition) : ∃ groups settings,
    Tree.ofDefinition d = .record [("schema", .text d.schema), ("resolvers", .record groups),
      ("config", .record settings)] ∧ d.Layout groups settings := by
  refine ⟨_, _, rfl, ?_, ?_, ?_⟩
  · cases hquery : d.resolvers.query.isEmpty <;> cases hmutation : d.resolvers.mutation.isEmpty <;>
      simp [Tree.ofResolvers.group, Operation.all, Resolvers.group, hquery, hmutation]
  · intro g hg
    exact (List.mem_append.1 hg).elim mem_group mem_group
  · obtain ⟨_, _, name, eventbus, region⟩ := d
    cases eventbus <;> cases region <;> rfl

end Layout

/-- Definitions survive being written and read, and every definition that is read is one of those that
do; so what is written of it is a normal form of the text. -/
theorem Definition.json_normalForm :
    (∀ d : Definition, d.TypeFree →
      read (m := Json.Read) (Json.Cursor.ofTree (.ofDefinition d) Json.maxDepth) = .ok d) ∧
    (∀ (format : Format) (text : String) (d : Definition),
      parse format text = .ok d → d.TypeFree) ∧
    ∀ (text : String) (d : Definition), parse .json text = .ok d →
      parse .json (Json.compact (.ofDefinition d)) = .ok d ∧
      parse .json (Json.indented 0 (.ofDefinition d)) = .ok d ∧
      (Json.Parsed.ofText (Json.compact (.ofDefinition d))).root.textual = true ∧
      ∃ groups settings, Tree.ofDefinition d = .record [("schema", .text d.schema),
        ("resolvers", .record groups), ("config", .record settings)] ∧
        d.Layout groups settings := by
  refine ⟨fun d h => read_ofDefinition h 121, fun _ _ _ => parse_typeFree, fun text d h => ?_⟩
  have htype := parse_typeFree h
  refine ⟨parse_compact htype, parse_indented htype, ?_, d.layout⟩
  rw [(Json.writes_compact _).ofText]
  exact Json.Node.textual_ofTree _

def messyText : String :=
  "\x7b\"x\":1,\"config\":\x7b\"region\":null,\"name\":\"n\"\x7d,\"resolvers\":\x7b\"Query\":\x7b\x7d," ++
  "\"Mutation\":\x7b\"b\":[],\"a\":\x7b\"k\":true,\"type\":\"add\",\"n\":2\x7d\x7d\x7d,\"schema\":\"\"\x7d"

def messyDefinition : Definition where
  schema := ""
  resolvers := { mutation := .ofList [("a", .single (.add (.ofList [("k", "true"), ("n", "2")]))),
    ("b", .pipeline [])] }
  config := { name := "n" }

def messyNormal : String :=
  "\x7b\"schema\":\"\",\"resolvers\":\x7b\"Mutation\":\x7b\"a\":\x7b\"type\":\"add\",\"k\":\"true\"," ++
  "\"n\":\"2\"\x7d,\"b\":[]\x7d\x7d,\"config\":\x7b\"name\":\"n\"\x7d\x7d"

theorem messyText_normalForm :
    Definition.parse .json messyText = .ok messyDefinition ∧ messyDefinition.TypeFree ∧
    Definition.read (m := Json.Read)
      (Json.Cursor.ofTree (.ofDefinition messyDefinition) Json.maxDepth) = .ok messyDefinition ∧
    Definition.parse .json messyNormal = .ok messyDefinition := by
  have hread : Definition.parse .json messyText = .ok messyDefinition := by decide +kernel
  have hwrite : Json.compact (.ofDefinition messyDefinition) = messyNormal := by decide +kernel
  have htype := Definition.json_normalForm.2.1 .json messyText messyDefinition hread
  refine ⟨hread, htype, Definition.json_normalForm.1 messyDefinition htype, ?_⟩
  rw [← hwrite]
  exact (Definition.json_normalForm.2.2 messyText messyDefinition hread).1

end ResolverPipeline
