import ResolverPipeline.Proofs.Reference
import ResolverPipeline.Proofs.Rendering

namespace ResolverPipeline

structure ResolvedEntry (scope : Scope) (entry : String × String) (r : String × Expression) :
    Prop where
  plain_key : Plain entry.1
  key_eq : r.1 = entry.1
  resolve_eq : resolve entry.2 scope = .ok r.2

theorem ResolvedEntry.plain {scope : Scope} {entry : String × String} {r : String × Expression}
    (h : ResolvedEntry scope entry r) : Plain r.1 := by
  rw [h.key_eq]
  exact h.plain_key

def resolveEntries (place : String → String) (scope : Scope) :
    List (String × String) → Except FieldError (List (String × Expression))
  | [] => .ok []
  | (key, value) :: rest => do
    let key' ← locate (place key) (plainText key)
    let e ← locate (place key) (resolve value scope)
    return (key', e) :: (← resolveEntries place scope rest)

theorem resolveEntries_eq_ok {place : String → String} {scope : Scope}
    {entries : List (String × String)} {rs : List (String × Expression)} :
    resolveEntries place scope entries = .ok rs ↔
      List.Forall₂ (ResolvedEntry scope) entries rs := by
  induction entries generalizing rs with
  | nil => simp [resolveEntries, eq_comm]
  | cons entry rest ih =>
    obtain ⟨key, value⟩ := entry
    simp only [resolveEntries, bind_eq_ok, locate_eq_ok, plainText_eq_ok, ih, except_pure,
      Except.ok.injEq, List.forall₂_cons_left_iff]
    constructor
    · rintro ⟨_, ⟨hkey, rfl⟩, e, he, tail, htail, rfl⟩
      exact ⟨(key, e), tail, ⟨hkey, rfl, he⟩, htail, rfl⟩
    · rintro ⟨⟨_, e⟩, tail, ⟨hkey, rfl, he⟩, htail, rfl⟩
      exact ⟨_, ⟨hkey, rfl⟩, e, he, tail, htail, rfl⟩

namespace Step

def guardOf (handles : Handles) (name : String) (pk sk : Expression) (scope : Scope) : Step :=
  build name .guard handles.schema handles.store
    (Template.guardRequest.textIn [("pk", .text pk.text), ("sk", .text sk.text)])
    (Template.guardResponse.textIn []) (slotsRead [pk, sk] scope)

theorem guard_eq (handles : Handles) (name pk sk : String) (scope : Scope) :
    guard handles name pk sk scope = do
      let pk ← locate (location name "pk") (resolve pk scope)
      let sk ← locate (location name "sk") (resolve sk scope)
      return guardOf handles name pk sk scope := by
  simp only [guard, guardOf, Template.fill_guardRequest, Template.fill_guardResponse,
    except_ok_bind]

theorem guard_eq_ok {handles : Handles} {name pk sk : String} {scope : Scope} {s : Step} :
    guard handles name pk sk scope = .ok s ↔ ∃ p k, resolve pk scope = .ok p ∧
      resolve sk scope = .ok k ∧ guardOf handles name p k scope = s := by
  simp only [guard_eq, bind_eq_ok, locate_eq_ok, except_pure, Except.ok.injEq]
  constructor
  · rintro ⟨p, hp, k, hk, hs⟩
    exact ⟨p, k, hp, hk, hs⟩
  · rintro ⟨p, k, hp, hk, hs⟩
    exact ⟨p, hp, k, hk, hs⟩

def storeRequest (pk sk item : String) (action : DbAction) : String :=
  (storeTemplate action).1.textIn (storeContext pk sk item action)

def storeResponse (action : DbAction) : String :=
  Template.stashResultResponse.textIn
    [("slot", .text Slot.dbResult.key), ("value", .text (storeTemplate action).2)]

def dataOf (handles : Handles) (name : String) (action : DbAction) : Step :=
  build name (.ofAction action) handles.schema handles.store
    (storeRequest (Slot.input.path ++ ".pk") (Slot.input.path ++ ".sk") Slot.input.path action)
    (storeResponse action) [.input]

theorem data_eq (handles : Handles) (name : String) (action : DbAction) :
    data handles name action = .ok (dataOf handles name action) := by
  simp only [data, dataOf, storeRequest, storeResponse, Template.fill_storeTemplate,
    Template.fill_stashResultResponse, except_ok_bind, except_pure]

def emitOf (handles : Handles) (name : String) (detail : List (String × Expression))
    (source bus event : String) (scope : Scope) : Step :=
  build name .emitEvent handles.schema handles.bus
    (Template.emitRequest.textIn [
      ("detail", .rows (detail.map fun (key, e) => [key, e.text])),
      ("source", .text source), ("bus", .text bus), ("event", .text event)])
    (Template.emitResponse.textIn []) (slotsRead (detail.map Prod.snd) scope)

theorem emit_eq (handles : Handles) (name : String) (envelope : Envelope) (scope : Scope) :
    emit handles name envelope scope = do
      let detail ← resolveDetail name scope envelope.detail.entries
      let source ← locate (location name "source") (plainText envelope.source)
      let bus ← locate (location name "bus") (plainText envelope.bus)
      let event ← locate (location name "event") (plainText envelope.event)
      return emitOf handles name detail source bus event scope := by
  simp only [emit, emitOf, Template.fill_emitRequest, Template.fill_emitResponse,
    except_ok_bind]

theorem resolveDetail_eq (name : String) (scope : Scope) (entries : List (String × String)) :
    resolveDetail name scope entries =
      resolveEntries (fun key => location name ("data." ++ key)) scope entries := by
  induction entries with
  | nil => rfl
  | cons entry rest ih => simp only [resolveDetail, resolveEntries, ih]

theorem emit_eq_ok {handles : Handles} {name : String} {envelope : Envelope} {scope : Scope}
    {s : Step} :
    emit handles name envelope scope = .ok s ↔
      Plain envelope.source ∧ Plain envelope.bus ∧ Plain envelope.event ∧
      ∃ detail, List.Forall₂ (ResolvedEntry scope) envelope.detail.entries detail ∧
        emitOf handles name detail envelope.source envelope.bus envelope.event scope = s := by
  simp only [emit_eq, bind_eq_ok, locate_eq_ok, resolveDetail_eq, resolveEntries_eq_ok,
    plainText_eq_ok, except_pure, Except.ok.injEq]
  constructor
  · rintro ⟨detail, hdetail, _, ⟨hsource, rfl⟩, _, ⟨hbus, rfl⟩, _, ⟨hevent, rfl⟩, hs⟩
    exact ⟨hsource, hbus, hevent, detail, hdetail, hs⟩
  · rintro ⟨hsource, hbus, hevent, detail, hdetail, hs⟩
    exact ⟨detail, hdetail, _, ⟨hsource, rfl⟩, _, ⟨hbus, rfl⟩, _, ⟨hevent, rfl⟩, hs⟩

theorem mem_noteRead {scope : Scope} {slots : List Slot} {e : Expression} {slot : Slot} :
    slot ∈ noteRead scope slots e ↔ slot ∈ slots ∨ e.reads scope = some slot := by
  unfold noteRead
  cases h : e.reads scope with
  | none => simp
  | some s => by_cases hs : s ∈ slots <;> grind

theorem mem_slotsRead {exprs : List Expression} {scope : Scope} {slot : Slot} :
    slot ∈ slotsRead exprs scope ↔ ∃ e ∈ exprs, e.reads scope = some slot := by
  suffices h : ∀ slots, slot ∈ exprs.foldl (noteRead scope) slots ↔
      slot ∈ slots ∨ ∃ e ∈ exprs, e.reads scope = some slot by
    simpa [slotsRead] using h []
  induction exprs with
  | nil => simp
  | cons e rest ih =>
    intro slots
    simp only [List.foldl_cons, ih, mem_noteRead, or_assoc, List.mem_cons, exists_eq_or_imp]

/-- What a step promises about its name and about what it reads, where `stored` says whether a result
is stored. -/
structure Fits (s : Step) (name : StepKind → String) (stored : Bool) : Prop where
  name_eq : s.name = name s.kind
  reads : ∀ slot ∈ s.reads, slot = .input ∨ slot = .dbResult ∧ stored = true

section Fits

variable {handles : Handles} {name : StepKind → String} {stored : Bool}

theorem guardOf_fits {pk sk : String} {p k : Expression} (hp : resolve pk (.pipeline stored) = .ok p)
    (hk : resolve sk (.pipeline stored) = .ok k) :
    (guardOf handles (name .guard) p k (.pipeline stored)).Fits name stored := by
  refine ⟨rfl, fun slot hslot => ?_⟩
  obtain ⟨e, he, hreads⟩ := mem_slotsRead.1 hslot
  simp only [List.mem_cons, List.not_mem_nil, or_false] at he
  obtain rfl | rfl := he
  · exact reads_of_resolve hp hreads
  · exact reads_of_resolve hk hreads

theorem dataOf_fits {action : DbAction} :
    (dataOf handles (name (.ofAction action)) action).Fits name stored :=
  ⟨rfl, fun _ hslot => .inl (List.mem_singleton.1 hslot)⟩

theorem emitOf_fits {entries : List (String × String)} {detail : List (String × Expression)}
    {source bus event : String}
    (hdetail : List.Forall₂ (ResolvedEntry (.pipeline stored)) entries detail) :
    (emitOf handles (name .emitEvent) detail source bus event (.pipeline stored)).Fits
      name stored := by
  refine ⟨rfl, fun slot hslot => ?_⟩
  obtain ⟨e, he, hreads⟩ := mem_slotsRead.1 hslot
  obtain ⟨r, hr, rfl⟩ := List.mem_map.1 he
  obtain ⟨entry, -, hentry⟩ := exists_mem_of_forall₂ hdetail hr
  exact reads_of_resolve hentry.resolve_eq hreads

end Fits

end Step

namespace ResolverTemplates

def pipelineOf (operation : Operation) (fields : List (String × Expression)) :
    ResolverTemplates where
  request := Template.pipelineRequest.textIn [
    ("seed", .text (seed operation)),
    ("fields", .rows (fields.map fun (key, e) => [key, e.text]))]
  response := Template.pipelineResponse.textIn [
    ("result", .text Slot.dbResult.path), ("fallback", .text (fallback operation))]

theorem pipeline_eq (p : Pipeline) :
    pipeline p = do
      let fields ← resolveExtra p.extraFields.entries
      return pipelineOf p.operation fields := by
  simp only [pipeline, pipelineOf, Template.fill_pipelineRequest, Template.fill_pipelineResponse,
    except_ok_bind]

theorem resolveExtra_eq (entries : List (String × String)) :
    resolveExtra entries =
      resolveEntries (fun key => "extra field '" ++ key ++ "'") (.pipeline false) entries := by
  induction entries with
  | nil => rfl
  | cons entry rest ih => simp only [resolveExtra, resolveEntries, ih]

theorem pipeline_eq_ok {p : Pipeline} {t : ResolverTemplates} :
    pipeline p = .ok t ↔ ∃ fields,
      List.Forall₂ (ResolvedEntry (.pipeline false)) p.extraFields.entries fields ∧
        pipelineOf p.operation fields = t := by
  simp only [pipeline_eq, resolveExtra_eq, bind_eq_ok, resolveEntries_eq_ok, except_pure,
    Except.ok.injEq]

theorem directKey_eq_ok {access : DbAccess} {key text : String} {value : Option String} :
    directKey access key value = .ok text ↔
      ∃ v e, value = some v ∧ resolve v .direct = .ok e ∧ e.text = text := by
  cases value with
  | none => simp [directKey]
  | some v => simp [directKey, bind_eq_ok, locate_eq_ok]

theorem directKeys_list {pk sk : Option String} {p k : String} :
    directKeys ⟨.list, pk, sk⟩ = .ok (p, k) ↔
      directKey ⟨.list, pk, sk⟩ "pk" pk = .ok p ∧ directKey ⟨.list, pk, sk⟩ "sk" sk = .ok k := by
  simp [directKeys, bind_eq_ok]

def unitOf (action : DbAction) (pk sk : String) : ResolverTemplates where
  request := Step.storeRequest pk sk "$ctx.args.input" action
  response := Template.resultResponse.textIn [("value", .text (Step.storeTemplate action).2)]

theorem unit_eq (access : DbAccess) :
    unit access = do
      let (pk, sk) ← directKeys access
      return unitOf access.action pk sk := by
  simp only [unit, unitOf, Step.storeRequest, Template.fill_storeTemplate,
    Template.fill_resultResponse, except_ok_bind]

end ResolverTemplates

end ResolverPipeline
