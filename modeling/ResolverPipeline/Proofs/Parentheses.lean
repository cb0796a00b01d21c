import ResolverPipeline.Proofs.Lossless

namespace ResolverPipeline

open Template

variable {handles : Handles} {app : AppConfig} {operation : Operation} {field : String}
  {scope : Scope}

inductive Parenthesis
  | opening
  | closing
  deriving DecidableEq

namespace Parenthesis

def ofChar? : Char → Option Parenthesis
  | '(' => some .opening
  | ')' => some .closing
  | _ => none

def nesting : Nat → List Parenthesis → Option Nat
  | depth, [] => some depth
  | depth, .opening :: ps => nesting (depth + 1) ps
  | 0, .closing :: _ => none
  | depth + 1, .closing :: ps => nesting depth ps

/-- That no call is closed before it is opened, or left open. -/
def Closed (ps : List Parenthesis) : Prop := nesting 0 ps = some 0

instance (ps : List Parenthesis) : Decidable (Closed ps) := by unfold Closed; infer_instance

def call : Nat → List Parenthesis → List Parenthesis
  | 0, ps => ps
  | n + 1, ps => .opening :: call n ps ++ [.closing]

theorem nesting_append (depth : Nat) (ps qs : List Parenthesis) :
    nesting depth (ps ++ qs) = (nesting depth ps).bind (nesting · qs) := by
  induction ps generalizing depth with
  | nil => rfl
  | cons p ps ih =>
    cases p with
    | opening => exact ih (depth + 1)
    | closing =>
      cases depth with
      | zero => rfl
      | succ depth => exact ih depth

theorem nesting_add {depth depth' : Nat} {ps : List Parenthesis} (h : nesting depth ps = some depth')
    (n : Nat) : nesting (depth + n) ps = some (depth' + n) := by
  induction ps generalizing depth with
  | nil =>
    cases h
    rfl
  | cons p ps ih =>
    cases p with
    | opening =>
      rw [nesting, Nat.add_right_comm]
      exact ih h
    | closing =>
      cases depth with
      | zero => cases h
      | succ depth =>
        rw [Nat.add_right_comm, nesting]
        exact ih h

namespace Closed

variable {ps qs : List Parenthesis}

theorem nesting_eq (h : Closed ps) (depth : Nat) : nesting depth ps = some depth := by
  have hdepth := nesting_add h depth
  rwa [Nat.zero_add] at hdepth

theorem append_left_iff (h : Closed ps) : Closed (ps ++ qs) ↔ Closed qs := by
  rw [Closed, nesting_append, h, Option.bind_some, Closed]

theorem append_right_iff (h : Closed qs) : Closed (ps ++ qs) ↔ Closed ps := by
  have hqs : ∀ x : Option Nat, x.bind (nesting · qs) = x := by
    intro x
    cases x with
    | none => rfl
    | some depth => exact h.nesting_eq depth
  rw [Closed, nesting_append, hqs, Closed]

theorem call (h : Closed ps) (n : Nat) : Closed (call n ps) := by
  induction n with
  | zero => exact h
  | succ n ih =>
    rw [Closed, Parenthesis.call, nesting_append, nesting, ih.nesting_eq 1]
    rfl

end Closed

end Parenthesis

open Parenthesis

section Scanning

def endsQuoted : Bool → List Char → Bool
  | quoted, [] => quoted
  | quoted, c :: cs => endsQuoted (if c = '"' then !quoted else quoted) cs

def unquoted : Bool → List Char → List Parenthesis
  | _, [] => []
  | quoted, c :: cs =>
    if c = '"' then unquoted (!quoted) cs
    else if quoted then unquoted quoted cs
    else (ofChar? c).toList ++ unquoted quoted cs

def Balanced (text : String) : Prop := Closed (unquoted false text.toList)

instance (text : String) : Decidable (Balanced text) := by unfold Balanced; infer_instance

theorem endsQuoted_append (quoted : Bool) (cs more : List Char) :
    endsQuoted quoted (cs ++ more) = endsQuoted (endsQuoted quoted cs) more := by
  induction cs generalizing quoted with
  | nil => rfl
  | cons c cs ih => exact ih _

theorem unquoted_append (quoted : Bool) (cs more : List Char) :
    unquoted quoted (cs ++ more) = unquoted quoted cs ++ unquoted (endsQuoted quoted cs) more := by
  induction cs generalizing quoted with
  | nil => rfl
  | cons c cs ih =>
    rw [List.cons_append, unquoted, unquoted, endsQuoted]
    split
    · exact ih _
    · split
      · exact ih _
      · rw [ih, List.append_assoc]

/-- What a text adds to one that ends outside or inside quotes, and where it ends itself. -/
def Spells (quoted : Bool) (text : String) (ps : List Parenthesis) (quoted' : Bool) : Prop :=
  unquoted quoted text.toList = ps ∧ endsQuoted quoted text.toList = quoted'

instance (quoted : Bool) (text : String) (ps : List Parenthesis) (quoted' : Bool) :
    Decidable (Spells quoted text ps quoted') := by unfold Spells; infer_instance

namespace Spells

variable {a b : String} {q q' q'' : Bool} {ps qs : List Parenthesis}

theorem append (ha : Spells q a ps q') (hb : Spells q' b qs q'') :
    Spells q (a ++ b) (ps ++ qs) q'' := by
  obtain ⟨rfl, rfl⟩ := ha
  obtain ⟨rfl, rfl⟩ := hb
  rw [Spells, String.toList_append]
  exact ⟨unquoted_append _ _ _, endsQuoted_append _ _ _⟩

theorem of_chars {cs : List Char} (h : unquoted q cs = ps ∧ endsQuoted q cs = q') :
    Spells q (String.ofList cs) ps q' := by
  rw [Spells, String.toList_ofList]
  exact h

theorem balanced_iff (h : Spells false a ps q') : Balanced a ↔ Closed ps := by
  rw [Balanced, h.1]

end Spells

theorem Plain.spells {s : String} (h : Plain s) (quoted : Bool) :
    Spells quoted s (if quoted then [] else s.toList.filterMap ofChar?) quoted := by
  have hquote := h.1
  rw [Spells]
  revert hquote
  induction s.toList with
  | nil => simp [unquoted, endsQuoted]
  | cons c cs ih =>
    intro hquote
    rw [List.mem_cons, not_or] at hquote
    obtain ⟨hps, hends⟩ := ih hquote.2
    rw [unquoted, endsQuoted, if_neg (Ne.symm hquote.1), if_neg (Ne.symm hquote.1), hps]
    refine ⟨?_, hends⟩
    cases quoted with
    | true => rfl
    | false => cases hc : ofChar? c <;> simp [hc]

end Scanning

section References

def pathParentheses (value : String) : List Parenthesis :=
  match value.toList with
  | '$' :: path | '#' :: path => path.filterMap ofChar?
  | _ => []

/-- The parentheses of what a value resolves to.  A fresh identifier takes two calls, one of them around
the value. -/
def valueParentheses (value : String) : List Parenthesis :=
  if mentionsId value then call 1 (pathParentheses value ++ [.opening, .closing])
  else pathParentheses value

theorem pathParentheses_literal {value : String} (h : Plain value) :
    pathParentheses value = [] := by
  unfold pathParentheses
  split
  · rename_i path hpath
    exact absurd (hpath ▸ List.mem_cons_self) h.2.1
  · rename_i path hpath
    exact absurd (hpath ▸ List.mem_cons_self) h.2.2
  · rfl

theorem BaseText.spells {value text : String} {kind : ReferenceKind}
    (h : BaseText scope value kind text) : Spells false text (pathParentheses value) false := by
  have hdot : Spells false "." [] false := by decide
  cases h with
  | @input path hne hp =>
    have hbase : Spells false scope.inputBase [] false := by
      cases scope with
      | direct => decide
      | pipeline stored => exact (by decide : Spells false Slot.input.path [] false)
    have hpath : pathParentheses ("$" ++ path) = path.toList.filterMap ofChar? := by
      simp [pathParentheses]
    rw [hpath]
    exact (hbase.append hdot).append (hp.spells false)
  | @result path hscope hne hp =>
    have hbase : Spells false Slot.dbResult.path [] false := by decide
    have hpath : pathParentheses ("#" ++ path) = path.toList.filterMap ofChar? := by
      simp [pathParentheses]
    rw [hpath]
    exact (hbase.append hdot).append (hp.spells false)
  | literal hp =>
    have hopen : Spells false "\"" [] true := by decide
    have hclose : Spells true "\"" [] false := by decide
    rw [pathParentheses_literal hp]
    exact (hopen.append (hp.spells true)).append hclose

theorem resolved_spells {value : String} {e : Expression} (h : resolve value scope = .ok e) :
    Spells false e.text (valueParentheses value) false := by
  obtain ⟨kind, base, hbase, rfl⟩ := resolve_eq_ok.1 h
  simp only [freshText, valueParentheses]
  split
  · have hopen : Spells false "$util.str.toReplace(" [.opening] false := .of_chars (by decide)
    have htoken : Spells false ", \"" [] true := by decide
    have hid : Spells true idToken [] true := by decide
    have hclose : Spells true "\", $util.autoId())" [.opening, .closing, .closing] false :=
      .of_chars (by decide)
    have hps : call 1 (pathParentheses value ++ [.opening, .closing]) =
        [.opening] ++ pathParentheses value ++ [] ++ [] ++ [.opening, .closing, .closing] := by
      simp [call]
    rw [hps]
    exact (((hopen.append hbase.spells).append htoken).append hid).append hclose
  · exact hbase.spells

end References

section Templates

attribute [local simp] textIn segmentsText Segment.textIn Inline.textIn text gap Context.text
  Context.pairs Context.get? Context.within List.lookup_cons Value.display pairs_rows pairsText_rows

def calls (n : Nat) (values : List String) : List Parenthesis :=
  values.flatMap fun value => call n (valueParentheses value)

theorem spells_text {c : Context} {s : String} {q q' : Bool} {ps : List Parenthesis}
    (h : Spells q s ps q') : Spells q (segmentsText c [text s]) ps q' := by
  simpa using h

section Keys

variable {pk sk : String} {ps qs : List Parenthesis}

theorem storeContext_text (pk sk item : String) (action : DbAction) :
    Context.text (Step.storeContext pk sk item action) "pk" = pk ∧
      Context.text (Step.storeContext pk sk item action) "sk" = sk := by
  cases action <;> simp [Step.storeContext]

theorem keyedRequest_spells (name : String) (hname : Plain name) (item : String) (action : DbAction)
    (hpk : Spells false pk ps false) (hsk : Spells false sk qs false) {rest : List Segment}
    {rs : List Parenthesis}
    (hrest : Spells false (segmentsText (Step.storeContext pk sk item action) rest) rs false) :
    Spells false (segmentsText (Step.storeContext pk sk item action) (keyedRequest name ++ rest))
      (call 1 ps ++ (call 1 qs ++ rs)) false := by
  -- From here on the fixed texts stand behind variables, with what they spell as all that is known.
  obtain ⟨a, b, d, e, f, g, hsegments, ha, hb, hf, hg⟩ : ∃ a b d e f g : String,
      keyedRequest name =
        [text (a ++ name ++ b ++ d ++ e), gap "pk" 5, text f, gap "sk" 6, text g] ∧
      Spells false a [] true ∧ Spells true (b ++ d ++ e) [.opening] false ∧
      Spells false f [.closing, .opening] false ∧ Spells false g [.closing] false := by
    refine ⟨_, _, _, _, _, _, rfl, ?_, ?_, ?_, ?_⟩ <;>
    · -- Each line as its characters: an appended text takes far longer to evaluate.
      simp only [Spells, String.toList_append]
      repeat rw [String.toList_ofList]
      decide +kernel
  have hkeys := ha.append ((hname.spells true).append (hb.append (hpk.append (hf.append
    (hsk.append (hg.append hrest))))))
  obtain ⟨hpkText, hskText⟩ := storeContext_text pk sk item action
  simpa [-Context.text, hsegments, hpkText, hskText, call, String.append_assoc] using hkeys

theorem queryRequest_spells (hpk : Spells false pk ps false) (hsk : Spells false sk qs false) :
    Spells false (queryRequest.textIn [("pk", .text pk), ("sk", .text sk)])
      (call 1 ps ++ (call 1 qs ++ [])) false := by
  obtain ⟨a, b, d, hsegments, ha, hb, hd⟩ : ∃ a b d : String,
      queryRequest.segments = [text a, gap "pk" 7, text b, gap "sk" 8, text d] ∧
      Spells false a [.opening] false ∧ Spells false b [.closing, .opening] false ∧
      Spells false d [.closing] false := by
    refine ⟨_, _, _, rfl, ?_, ?_, ?_⟩ <;>
    · simp only [Spells, String.toList_append]
      repeat rw [String.toList_ofList]
      decide +kernel
  simpa [hsegments, call] using ha.append (hpk.append (hb.append (hsk.append hd)))

theorem guardRequest_spells (hpk : Spells false pk ps false) (hsk : Spells false sk qs false) :
    Spells false (guardRequest.textIn [("pk", .text pk), ("sk", .text sk)])
      (call 1 ps ++ (call 1 qs ++ [])) false :=
  keyedRequest_spells "GetItem" (by decide) "" .get hpk hsk (spells_text (.of_chars (by decide)))

theorem storeRequest_spells {item : String} (hpk : Spells false pk ps false)
    (hsk : Spells false sk qs false) (hitem : Spells false item [] false) (action : DbAction) :
    ∃ rs, Closed rs ∧
      Spells false (Step.storeRequest pk sk item action) (call 1 ps ++ (call 1 qs ++ rs)) false := by
  cases action with
  | get =>
    have htail : Spells false
        (segmentsText (Step.storeContext pk sk item .get) [text "\n\x7d"]) [] false :=
      spells_text (.of_chars (by decide))
    exact ⟨[], rfl, keyedRequest_spells "GetItem" (by decide) item .get hpk hsk htail⟩
  | list => exact ⟨[], rfl, queryRequest_spells hpk hsk⟩
  | create =>
    have hbefore : Spells false
        ",\n  \"attributeValues\": $util.dynamodb.toMapValuesJson(" [.opening] false :=
      .of_chars (by decide)
    have hafter : Spells false ")\n\x7d" [.closing] false := .of_chars (by decide)
    refine ⟨[.opening, .closing], rfl,
      keyedRequest_spells "PutItem" (by decide) item .create hpk hsk ?_⟩
    simpa [Step.storeContext] using hbefore.append (hitem.append hafter)
  | remove =>
    have htail : Spells false
        (segmentsText (Step.storeContext pk sk item .remove) [text "\n\x7d"]) [] false :=
      spells_text (.of_chars (by decide))
    exact ⟨[], rfl, keyedRequest_spells "DeleteItem" (by decide) item .remove hpk hsk htail⟩

end Keys

theorem rowsText_spells {opening : String}
    (hopening : Spells false opening [.opening, .opening] true) {entries : List (String × String)}
    {rs : List (String × Expression)} (h : List.Forall₂ (ResolvedEntry scope) entries rs) :
    Spells false (rowsText opening rs) (calls 2 (entries.map Prod.snd)) false := by
  have hcomma : Spells true "\", " [] false := by decide
  have hclose : Spells false "))\n" [.closing, .closing] false := by decide
  induction h with
  | nil => exact ⟨rfl, rfl⟩
  | @cons entry r entries rs hr _ ih =>
    have hkey : Spells true r.1 [] true := hr.plain.spells true
    have hrow := hopening.append (hkey.append
      (hcomma.append ((resolved_spells hr.resolve_eq).append (hclose.append ih))))
    simpa [rowsText, calls, call] using hrow

theorem emitRequest_spells {entries : List (String × String)} {detail : List (String × Expression)}
    {source bus event : String} (hdetail : List.Forall₂ (ResolvedEntry scope) entries detail)
    (hsource : Plain source) (hbus : Plain bus) (hevent : Plain event) :
    Spells false
      (emitRequest.textIn [
        ("detail", .rows (detail.map fun (key, e) => [key, e.text])),
        ("source", .text source), ("bus", .text bus), ("event", .text event)])
      (call 1 [] ++ (calls 2 (entries.map Prod.snd) ++ call 2 [])) false := by
  obtain ⟨a, b, c, d, e, hsegments, ha, hb, hc, hd, he⟩ : ∃ a b c d e : String,
      emitRequest.segments = [text a,
        .pairs "detail" 2 [
          .text "$util.qr($detail.put(\"", .gap "key" 3, .text "\", ", .gap "value" 3, .text "))\n"],
        text b, gap "source" 17, text c, gap "bus" 18, text d, gap "event" 20, text e] ∧
      Spells false a (call 1 []) false ∧ Spells false b [] true ∧ Spells true c [] true ∧
      Spells true d (call 2 []) true ∧ Spells true e [] false := by
    refine ⟨_, _, _, _, _, rfl, ?_, ?_, ?_, ?_, ?_⟩ <;>
    · simp only [Spells, String.toList_append]
      repeat rw [String.toList_ofList]
      decide +kernel
  have hrows : Spells false (rowsText "$util.qr($detail.put(\"" detail)
      (calls 2 (entries.map Prod.snd)) false :=
    rowsText_spells (.of_chars (by decide)) hdetail
  have hnames := hb.append ((hsource.spells true).append (hc.append ((hbus.spells true).append
    (hd.append ((hevent.spells true).append he)))))
  simpa [hsegments] using ha.append (hrows.append hnames)

theorem pipelineOf_spells {entries : List (String × String)} {fields : List (String × Expression)}
    (h : List.Forall₂ (ResolvedEntry (.pipeline false)) entries fields) :
    Spells false (ResolverTemplates.pipelineOf operation fields).request
      (call 2 [] ++ calls 2 (entries.map Prod.snd)) false := by
  have hseed : Spells false (ResolverTemplates.seed operation) [] false := by
    cases operation <;> decide
  have hbefore : Spells false "$util.qr($ctx.stash.put(\"input\", " [.opening, .opening] false :=
    .of_chars (by decide)
  have hbetween : Spells false "))\n" [.closing, .closing] false := .of_chars (by decide)
  have hrows : Spells false (rowsText "$util.qr($ctx.stash.input.put(\"" fields)
      (calls 2 (entries.map Prod.snd)) false :=
    rowsText_spells (.of_chars (by decide)) h
  have hlast : Spells false "\x7b\x7d" [] false := by decide
  have hlines := hbefore.append (hseed.append (hbetween.append (hrows.append hlast)))
  simpa [ResolverTemplates.pipelineOf, pipelineRequest, call] using hlines

section Responses

theorem guardResponse_balanced : Balanced (guardResponse.textIn []) := by
  simp only [Balanced, guardResponse, textIn, segmentsText, text, Segment.textIn, Inline.textIn,
    String.toList_append]
  repeat rw [String.toList_ofList]
  decide +kernel

theorem emitResponse_balanced : Balanced (emitResponse.textIn []) := by
  simp only [Balanced, emitResponse, textIn, segmentsText, text, Segment.textIn, Inline.textIn,
    String.toList_append]
  repeat rw [String.toList_ofList]
  decide +kernel

theorem storeResponse_balanced (action : DbAction) : Balanced (Step.storeResponse action) := by
  have hvalue : Spells false (Step.storeTemplate action).2 [] false := by
    cases action <;> decide
  have hput : Spells false "$util.qr($ctx.stash.put(\"" [.opening, .opening] true :=
    .of_chars (by decide)
  have hslot : Spells true Slot.dbResult.key [] true := by decide
  have hcomma : Spells true "\", " [] false := by decide
  have hclose : Spells false "))\n" [.closing, .closing] false := .of_chars (by decide)
  have hjson : Spells false "$util.toJson(" [.opening] false := .of_chars (by decide)
  have hend : Spells false ")" [.closing] false := by decide
  have hresponse : Spells false (Step.storeResponse action) (call 2 [] ++ call 1 []) false := by
    simpa [Step.storeResponse, stashResultResponse, call] using hput.append (hslot.append
      (hcomma.append (hvalue.append (hclose.append (hjson.append (hvalue.append hend))))))
  exact hresponse.balanced_iff.2 rfl

theorem unitOf_response_balanced (action : DbAction) (pk sk : String) :
    Balanced (ResolverTemplates.unitOf action pk sk).response := by
  have hkeys : (ResolverTemplates.unitOf action pk sk).response =
      (ResolverTemplates.unitOf action "" "").response := rfl
  rw [hkeys]
  cases action <;> decide +kernel

theorem pipelineOf_response_balanced (fields : List (String × Expression)) :
    Balanced (ResolverTemplates.pipelineOf operation fields).response := by
  have hfields : (ResolverTemplates.pipelineOf operation fields).response =
      (ResolverTemplates.pipelineOf operation []).response := rfl
  rw [hfields]
  cases operation <;>
  · simp only [Balanced, ResolverTemplates.pipelineOf, ResolverTemplates.fallback, pipelineResponse,
      textIn, segmentsText, text, gap, Segment.textIn, Inline.textIn, String.toList_append]
    decide +kernel

end Responses

end Templates

/-- The values that a step puts into calls of its request, with the depth of these calls. -/
def Descriptor.calledValues : Descriptor → List (Nat × List String)
  | .add _ | .db _ => []
  | .guard pk sk => [(1, [pk, sk])]
  | .emit _ data => [(2, data.entries.map Prod.snd)]

def Resolver.calledValues : Resolver → List (Nat × List String)
  | .single (.db ⟨.list, some pk, some sk⟩) => [(1, [pk, sk])]
  | .single _ => []
  | .pipeline ds =>
    ds.flatMap Descriptor.calledValues ++ [(2, (mergedFields ds).entries.map Prod.snd)]

def KeepCalls (group : Nat × List String) : Prop := Closed (calls group.1 group.2)

instance (group : Nat × List String) : Decidable (KeepCalls group) := by
  unfold KeepCalls; infer_instance

structure Step.Balanced (s : Step) : Prop where
  request : ResolverPipeline.Balanced s.requestTemplate
  response : ResolverPipeline.Balanced s.responseTemplate

structure CompiledField.Balanced (f : CompiledField) : Prop where
  request : ResolverPipeline.Balanced f.requestTemplate
  response : ResolverPipeline.Balanced f.responseTemplate
  steps : ∀ s ∈ f.steps, s.Balanced

theorem Step.balanced_iff {s : Step} {ps : List Parenthesis} {quoted : Bool}
    (hrequest : Spells false s.requestTemplate ps quoted)
    (hresponse : ResolverPipeline.Balanced s.responseTemplate) : s.Balanced ↔ Closed ps := by
  rw [← hrequest.balanced_iff]
  exact ⟨Step.Balanced.request, fun h => ⟨h, hresponse⟩⟩

theorem guardOf_balanced_iff {name pk sk : String} {p k : Expression} (hp : resolve pk scope = .ok p)
    (hk : resolve sk scope = .ok k) :
    (Step.guardOf handles name p k scope).Balanced ↔ KeepCalls (1, [pk, sk]) := by
  have hrequest : Spells false (Step.guardOf handles name p k scope).requestTemplate
      (calls 1 [pk, sk]) false := guardRequest_spells (resolved_spells hp) (resolved_spells hk)
  exact Step.balanced_iff hrequest guardResponse_balanced

theorem dataOf_balanced (name : String) (action : DbAction) :
    (Step.dataOf handles name action).Balanced := by
  obtain ⟨rs, hclosed, hspells⟩ := storeRequest_spells
    (by decide : Spells false (Slot.input.path ++ ".pk") [] false)
    (by decide : Spells false (Slot.input.path ++ ".sk") [] false)
    (by decide : Spells false Slot.input.path [] false) action
  have hrequest : Spells false (Step.dataOf handles name action).requestTemplate
      (call 1 [] ++ (call 1 [] ++ rs)) false := hspells
  have hkey : Closed (call 1 []) := rfl
  rw [Step.balanced_iff hrequest (storeResponse_balanced action), hkey.append_left_iff,
    hkey.append_left_iff]
  exact hclosed

theorem emitOf_balanced_iff {name source bus event : String} {entries : List (String × String)}
    {detail : List (String × Expression)}
    (hdetail : List.Forall₂ (ResolvedEntry scope) entries detail) (hsource : Plain source)
    (hbus : Plain bus) (hevent : Plain event) :
    (Step.emitOf handles name detail source bus event scope).Balanced ↔
      KeepCalls (2, entries.map Prod.snd) := by
  have hrequest : Spells false
      (Step.emitOf handles name detail source bus event scope).requestTemplate
      (call 1 [] ++ (calls 2 (entries.map Prod.snd) ++ call 2 [])) false :=
    emitRequest_spells hdetail hsource hbus hevent
  have hopening : Closed (call 1 []) := rfl
  have hnames : Closed (call 2 []) := rfl
  rw [Step.balanced_iff hrequest emitResponse_balanced, hopening.append_left_iff,
    hnames.append_right_iff, KeepCalls]

theorem Descriptor.Builds.balanced_iff {d : Descriptor} {name : StepKind → String} {s : Step}
    (h : d.Builds handles app name scope s) : s.Balanced ↔ ∀ g ∈ d.calledValues, KeepCalls g := by
  cases h with
  | guard hp hk => simpa [Descriptor.calledValues] using guardOf_balanced_iff hp hk
  | db access => simpa [Descriptor.calledValues] using dataOf_balanced _ access.action
  | emit hsource hbus hevent hdetail =>
    simpa [Descriptor.calledValues] using emitOf_balanced_iff hdetail hsource hbus hevent

theorem directKeys_spells {access : DbAccess} {pk sk : String}
    (h : ResolverTemplates.directKeys access = .ok (pk, sk)) :
    ∃ ps qs, Spells false pk ps false ∧ Spells false sk qs false ∧
      (Closed (call 1 ps ++ call 1 qs) ↔
        ∀ g ∈ (Resolver.single (.db access)).calledValues, KeepCalls g) := by
  obtain ⟨action, pk', sk'⟩ := access
  cases action with
  | list =>
    obtain ⟨hpk, hsk⟩ := ResolverTemplates.directKeys_list.1 h
    obtain ⟨v, p, rfl, hp, rfl⟩ := ResolverTemplates.directKey_eq_ok.1 hpk
    obtain ⟨w, k, rfl, hk, rfl⟩ := ResolverTemplates.directKey_eq_ok.1 hsk
    refine ⟨_, _, resolved_spells hp, resolved_spells hk, ?_⟩
    simp [Resolver.calledValues, KeepCalls, calls]
  | get =>
    cases h
    exact ⟨[], [], by decide, by decide, iff_of_true rfl (by simp [Resolver.calledValues])⟩
  | create =>
    cases h
    exact ⟨[], [], by decide, by decide, iff_of_true rfl (by simp [Resolver.calledValues])⟩
  | remove =>
    cases h
    exact ⟨[], [], by decide, by decide, iff_of_true rfl (by simp [Resolver.calledValues])⟩

theorem ofUnit_balanced_iff {access : DbAccess} {pk sk : String}
    (h : ResolverTemplates.directKeys access = .ok (pk, sk)) :
    (CompiledField.ofUnit handles operation field (.unitOf access.action pk sk)).Balanced ↔
      ∀ g ∈ (Resolver.single (.db access)).calledValues, KeepCalls g := by
  obtain ⟨ps, qs, hpk, hsk, hkeys⟩ := directKeys_spells h
  obtain ⟨rs, hclosed, hspells⟩ := storeRequest_spells hpk hsk
    (by decide : Spells false "$ctx.args.input" [] false) access.action
  have hrequest : Balanced (ResolverTemplates.unitOf access.action pk sk).request ↔
      Closed (call 1 ps ++ (call 1 qs ++ rs)) := hspells.balanced_iff
  rw [← hkeys, ← hclosed.append_right_iff, List.append_assoc, ← hrequest]
  exact ⟨CompiledField.Balanced.request,
    fun h => ⟨h, unitOf_response_balanced access.action pk sk, nofun⟩⟩

theorem ofPipeline_balanced_iff {ds : List Descriptor} {steps : List Step}
    {fields : List (String × Expression)}
    (hsteps : stepsFrom handles app operation field 0 false ds = .ok steps)
    (hfields : List.Forall₂ (ResolvedEntry (.pipeline false)) (mergedFields ds).entries fields) :
    (CompiledField.ofPipeline handles (.ofSteps operation field steps (mergedFields ds))
        (.pipelineOf operation fields)).Balanced ↔
      ∀ g ∈ (Resolver.pipeline ds).calledValues, KeepCalls g := by
  have hseed : Closed (call 2 []) := rfl
  have hrequest : Balanced (ResolverTemplates.pipelineOf operation fields).request ↔
      KeepCalls (2, (mergedFields ds).entries.map Prod.snd) := by
    rw [(pipelineOf_spells hfields).balanced_iff, hseed.append_left_iff, KeepCalls]
  have hbuilt : (∀ s ∈ steps, s.Balanced) ↔ ∀ d ∈ ds, ∀ g ∈ d.calledValues, KeepCalls g := by
    rw [← forall_mem_iff_of_forall₂ (fun ⟨_, _, h⟩ => h.balanced_iff.symm) (stepsFrom_builds hsteps)]
    simp only [List.mem_filter, and_imp]
    refine forall_congr' fun d => forall_congr' fun _ => ⟨fun h => ?_, fun h _ => h⟩
    cases hexec : d.isExecutable with
    | true => exact h hexec
    | false =>
      obtain ⟨fields, rfl⟩ := Descriptor.isExecutable_eq_false.1 hexec
      exact nofun
  rw [Resolver.calledValues, List.forall_mem_append, List.forall_mem_flatMap, List.forall_mem_singleton,
    ← hbuilt, ← hrequest]
  exact ⟨fun h => ⟨h.steps, h.request⟩,
    fun h => ⟨h.2, pipelineOf_response_balanced fields, h.1⟩⟩

theorem CompilesTo.balanced_iff {entry : Operation × String × Resolver} {f : CompiledField}
    (h : CompilesTo handles app entry f) :
    f.Balanced ↔ ∀ g ∈ entry.2.2.calledValues, KeepCalls g := by
  obtain ⟨operation, field, resolver⟩ := entry
  cases resolver with
  | single d =>
    cases d with
    | db access =>
      obtain ⟨pk, sk, hkeys, rfl⟩ := compilesTo_unit.1 h
      exact ofUnit_balanced_iff hkeys
    | _ => cases h
  | pipeline ds =>
    obtain ⟨-, steps, fields, hsteps, hfields, rfl⟩ := compilesTo_pipeline.1 h
    exact ofPipeline_balanced_iff hsteps hfields

theorem compiled_balanced_iff {entries : List (Operation × String × Resolver)}
    {fs : List CompiledField} (h : List.Forall₂ (CompilesTo handles app) entries fs) :
    (∀ f ∈ fs, f.Balanced) ↔ ∀ entry ∈ entries, ∀ g ∈ entry.2.2.calledValues, KeepCalls g :=
  (forall_mem_iff_of_forall₂ (fun hf => hf.balanced_iff.symm) h).symm

/-- Every compiled template has its parentheses balanced exactly if the paths that references put into
calls keep these calls, where those that share a template are taken together.  Nothing else that a
definition says has a part in it. -/
theorem compile_balanced_iff {d : Definition} {api : Api}
    (h : (compile handles d).result = .ok api) :
    (∀ f ∈ api.fields, f.Balanced) ↔
      ∀ entry ∈ d.resolvers.fields, ∀ g ∈ entry.2.2.calledValues, KeepCalls g := by
  obtain ⟨fs, hfs, rfl⟩ := compile_eq_ok.1 h
  exact compiled_balanced_iff hfs

def scatteredParentheses : Definition where
  schema := ""
  resolvers := {
    query := .ofList [("notes", .single (.db ⟨.list, some "notes)", some "$path(x)_@id"⟩))]
    mutation := .ofList [
      ("share", .pipeline [
        .add (.ofList [("k)", "(literal")]),
        .guard "$a(" "$b)",
        .db ⟨.create, none, none⟩,
        .emit "shared(" (.ofList [(")", "#sk")])])] }
  config := { name := "app)", eventbus := some "bus((" }

theorem scatteredParentheses_balanced_iff : ∃ api,
    (compile {} scatteredParentheses).result = .ok api ∧ ∀ f ∈ api.fields, f.Balanced := by
  obtain ⟨api, h⟩ := exists_ok_of_isOk (by decide +kernel :
    (compile {} scatteredParentheses).result.isOk = true)
  exact ⟨api, h, (compile_balanced_iff h).2 (by decide +kernel)⟩

def closingPath : Definition where
  schema := ""
  resolvers := { query := .ofList [("a", .single (.db ⟨.list, some "$a)", some "$b"⟩))] }
  config := { name := "a" }

theorem closingPath_unbalanced : ∃ api, (compile {} closingPath).result = .ok api ∧
    ¬ ∀ f ∈ api.fields, f.Balanced := by
  obtain ⟨api, h⟩ := exists_ok_of_isOk (by decide +kernel :
    (compile {} closingPath).result.isOk = true)
  obtain ⟨fs, hfs, rfl⟩ := compile_eq_ok.1 h
  exact ⟨_, h, (compiled_balanced_iff hfs).not.2 (by decide +kernel)⟩

section Paths

theorem closed_valueParentheses {value : String} (h : Closed (pathParentheses value)) :
    Closed (valueParentheses value) := by
  have hcall : Closed [.opening, .closing] := rfl
  unfold valueParentheses
  split
  · exact (hcall.append_right_iff.2 h).call 1
  · exact h

theorem closed_calls {n : Nat} {values : List String}
    (h : ∀ value ∈ values, Closed (pathParentheses value)) : Closed (calls n values) := by
  induction values with
  | nil => rfl
  | cons value rest ih =>
    rw [List.forall_mem_cons] at h
    have hvalue : Closed (call n (valueParentheses value)) := (closed_valueParentheses h.1).call n
    rw [calls, List.flatMap_cons, hvalue.append_left_iff]
    exact ih h.2

/-- Paths that have their own parentheses balanced do no harm to any template. -/
theorem compile_balanced_of_paths {d : Definition} {api : Api}
    (h : (compile handles d).result = .ok api)
    (hpaths : ∀ entry ∈ d.resolvers.fields, ∀ g ∈ entry.2.2.calledValues, ∀ value ∈ g.2,
      Closed (pathParentheses value)) : ∀ f ∈ api.fields, f.Balanced := by
  obtain ⟨fs, hfs, rfl⟩ := compile_eq_ok.1 h
  exact (compiled_balanced_iff hfs).2 fun entry hentry g hg =>
    closed_calls (hpaths entry hentry g hg)

end Paths

end ResolverPipeline
