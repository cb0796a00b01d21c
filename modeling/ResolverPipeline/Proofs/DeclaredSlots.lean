import ResolverPipeline.Proofs.Lossless
import ResolverPipeline.Proofs.Repetition
import ResolverPipeline.Proofs.StashDiscipline

namespace ResolverPipeline

open Template

variable {handles : Handles}

section Uses

def slotAt (text : List Char) : Option Slot :=
  Slot.all.find? fun s => s.path.toList.isPrefixOf text

/-- The slots whose paths stand in the text, one for each time, in the order of the text. -/
def slotUses : List Char → List Slot
  | [] => []
  | c :: cs => (slotAt (c :: cs)).toList ++ slotUses cs

theorem Slot.mem_all (s : Slot) : s ∈ Slot.all := by
  cases s <;> decide

theorem eq_of_prefix_path {s t : Slot} (h : s.path.toList <+: t.path.toList) : s = t := by
  revert h
  cases s <;> cases t <;> decide

theorem path_prefix_of_slotAt {text : List Char} {s : Slot} (h : slotAt text = some s) :
    s.path.toList <+: text := by
  have hfound := List.find?_some h
  exact List.isPrefixOf_iff_prefix.1 hfound

theorem slotAt_eq_some {text : List Char} {s : Slot} :
    slotAt text = some s ↔ s.path.toList <+: text := by
  constructor
  · exact path_prefix_of_slotAt
  · intro h
    cases hat : slotAt text with
    | none =>
      have hnone := List.find?_eq_none.1 hat s s.mem_all
      exact absurd (List.isPrefixOf_iff_prefix.2 h) hnone
    | some t =>
      obtain hle | hle := List.prefix_or_prefix_of_prefix h (path_prefix_of_slotAt hat)
      · rw [eq_of_prefix_path hle]
      · rw [eq_of_prefix_path hle]

theorem mem_slotUses {text : List Char} {s : Slot} :
    s ∈ slotUses text ↔ s.path.toList <:+: text := by
  induction text with
  | nil => cases s <;> decide
  | cons c cs ih =>
    rw [slotUses, List.mem_append, Option.mem_toList, slotAt_eq_some, ih, List.infix_cons_iff]

def UsedBefore (text : List Char) (s t : Slot) : Prop :=
  ∃ k, s.path.toList <+: text.drop k ∧ ∀ j, t.path.toList <+: text.drop j → k < j

theorem UsedBefore.cons {c : Char} {cs : List Char} {s t : Slot} (h : UsedBefore cs s t)
    (ht : slotAt (c :: cs) ≠ some t) : UsedBefore (c :: cs) s t := by
  obtain ⟨k, hk, hlater⟩ := h
  refine ⟨k + 1, hk, fun j hj => ?_⟩
  cases j with
  | zero => exact absurd (slotAt_eq_some.2 hj) ht
  | succ j => exact Nat.succ_lt_succ (hlater j hj)

theorem usedBefore_of_slotAt {text : List Char} {s t : Slot} (h : slotAt text = some s)
    (hne : t ≠ s) : UsedBefore text s t := by
  refine ⟨0, slotAt_eq_some.1 h, fun j hj => ?_⟩
  cases j with
  | zero =>
    rw [List.drop_zero, ← slotAt_eq_some, h, Option.some.injEq] at hj
    exact absurd hj.symm hne
  | succ j => exact Nat.succ_pos j

theorem slotUses_pairwise (text : List Char) :
    (slotUses text).eraseDups.Pairwise (UsedBefore text) := by
  induction text with
  | nil => exact .nil
  | cons c cs ih =>
    rw [slotUses]
    cases hat : slotAt (c :: cs) with
    | none =>
      rw [Option.toList_none, List.nil_append]
      exact ih.imp fun h => h.cons (by rw [hat]; exact (Option.some_ne_none _).symm)
    | some s =>
      -- The slot found here comes before all others, and those keep their order.
      rw [Option.toList_some, List.singleton_append, List.eraseDups_cons, ← filter_eraseDups,
        List.pairwise_cons]
      have hne : ∀ t ∈ (slotUses cs).eraseDups.filter (fun t => !t == s), t ≠ s := by
        intro t ht
        simpa using (List.mem_filter.1 ht).2
      constructor
      · intro t ht
        exact usedBefore_of_slotAt hat (hne t ht)
      · apply (ih.filter _).imp_of_mem
        intro t u _ hu h
        apply h.cons
        rw [hat, ne_eq, Option.some.injEq]
        exact (hne u hu).symm

theorem slotAt_append_of_avoids {c : Char} {text more : List Char}
    (h : avoids "$ctx.stash".toList (c :: text)) : slotAt (c :: text ++ more) = none := by
  cases hat : slotAt (c :: text ++ more) with
  | none => rfl
  | some s =>
    have hstash : "$ctx.stash".toList <+: s.path.toList := by
      cases s <;> decide
    exact absurd (hstash.trans (path_prefix_of_slotAt hat)) (not_prefix_append h)

theorem slotUses_append_of_avoids {text more : List Char}
    (h : avoids "$ctx.stash".toList text) : slotUses (text ++ more) = slotUses more := by
  induction text with
  | nil => rfl
  | cons c cs ih =>
    have hat : slotAt (c :: cs ++ more) = none := slotAt_append_of_avoids h
    rw [List.cons_append] at hat ⊢
    rw [slotUses, hat, Option.toList_none, List.nil_append, ih (avoids_cons.1 h).2.2]

/-- That these are the slots used in the text, one for each time, whatever comes behind it. -/
def Uses (text : String) (slots : List Slot) : Prop :=
  ∀ more, slotUses (text.toList ++ more) = slots ++ slotUses more

namespace Uses

variable {a b : String} {xs ys : List Slot}

theorem append (ha : Uses a xs) (hb : Uses b ys) : Uses (a ++ b) (xs ++ ys) := by
  intro more
  rw [String.toList_append, List.append_assoc, ha, hb, List.append_assoc]

theorem of_avoids (h : Avoids "$ctx.stash" a) : Uses a [] :=
  fun _ => slotUses_append_of_avoids h

theorem before (ha : Avoids "$ctx.stash" a) (hb : Uses b ys) : Uses (a ++ b) ys :=
  (of_avoids ha).append hb

theorem behind (ha : Uses a xs) (hb : Avoids "$ctx.stash" b) : Uses (a ++ b) xs := by
  have h := ha.append (of_avoids hb)
  rwa [List.append_nil] at h

theorem path (s : Slot) : Uses s.path [s] := by
  intro more
  obtain ⟨tail, hpath, htail⟩ : ∃ tail, s.path.toList = '$' :: tail ∧ '$' ∉ tail := by
    cases s <;> exact ⟨_, rfl, by decide⟩
  have hat : slotAt (s.path.toList ++ more) = some s :=
    slotAt_eq_some.2 (List.prefix_append _ more)
  have havoids : avoids "$ctx.stash".toList tail := avoids_of_not_mem htail
  rw [hpath, List.cons_append] at hat ⊢
  rw [slotUses, hat, slotUses_append_of_avoids havoids, Option.toList_some]

theorem slotUses_eq (h : Uses a xs) : slotUses a.toList = xs := by
  have hnothing := h []
  rwa [List.append_nil, slotUses, List.append_nil] at hnothing

end Uses

end Uses

section Templates

def segmentSlots (used : String → List Slot) : Segment → List Slot
  | .inline (.text _) => []
  | .inline (.gap name _) => used name
  | .pairs name _ _ => used name

def SegmentUses (used : String → List Slot) (c : Context) : Segment → Prop
  | .inline (.text _) => True
  | .inline (.gap name _) => Uses (c.text name) (used name)
  | .pairs name _ body => Uses (pairsText c body (c.pairs name)) (used name)

theorem segmentsText_uses {used : String → List Slot} {c : Context} {ss : List Segment}
    (hfixed : ∀ f ∈ ss.flatMap Segment.fixed, Avoids "$ctx.stash" f)
    (h : ∀ s ∈ ss, SegmentUses used c s) :
    Uses (segmentsText c ss) (ss.flatMap (segmentSlots used)) := by
  induction ss with
  | nil => exact .of_avoids rfl
  | cons s rest ih =>
    rw [List.forall_mem_cons] at h
    rw [List.flatMap_cons, List.forall_mem_append] at hfixed
    have hs : Uses (s.textIn c) (segmentSlots used s) := by
      cases s with
      | inline i =>
        cases i with
        | text t => exact .of_avoids (hfixed.1 t (by simp [Segment.fixed, Inline.fixed]))
        | gap name line => exact h.1
      | pairs name line body => exact h.1
    exact hs.append (ih hfixed.2 h.2)

theorem textIn_uses {used : String → List Slot} {c : Context} {t : Template} (ht : t ∈ stashless)
    (h : ∀ s ∈ t.segments, SegmentUses used c s) :
    Uses (t.textIn c) (t.segments.flatMap (segmentSlots used)) :=
  segmentsText_uses (fixed_avoids_stash ht) h

theorem rowsText_uses {opening : String} {used : Expression → List Slot}
    {rs : List (String × Expression)} (hopening : Avoids "$ctx.stash" opening)
    (h : ∀ r ∈ rs, Avoids "$ctx.stash" r.1 ∧ Uses r.2.text (used r.2)) :
    Uses (rowsText opening rs) ((rs.map Prod.snd).flatMap used) := by
  have hcomma : Avoids "$ctx.stash" "\", " := by decide
  have hclose : Avoids "$ctx.stash" "))\n" := by decide
  induction rs with
  | nil => exact .of_avoids rfl
  | cons r rest ih =>
    rw [List.forall_mem_cons] at h
    obtain ⟨⟨hkey, hvalue⟩, hrest⟩ := h
    have hvalues := hvalue.append (.before hclose (ih hrest))
    exact .before hopening (.before hkey (.before hcomma hvalues))

attribute [local simp] SegmentUses segmentSlots text gap Context.text Context.pairs Context.get?
  List.lookup_cons Value.display pairs_rows

theorem guardRequest_uses {pk sk : String} {xs ys : List Slot} (hpk : Uses pk xs)
    (hsk : Uses sk ys) :
    Uses (guardRequest.textIn [("pk", .text pk), ("sk", .text sk)]) (xs ++ ys) := by
  have h : Uses (guardRequest.textIn [("pk", .text pk), ("sk", .text sk)])
      (guardRequest.segments.flatMap (segmentSlots fun name => if name = "pk" then xs else ys)) :=
    textIn_uses (by simp [stashless])
      (by simp [guardRequest, keyedRequest, -String.reduceAppend, hpk, hsk])
  simpa [guardRequest, keyedRequest, -String.reduceAppend] using h

theorem storeRequest_uses {pk sk item : String} {xs : List Slot} (hpk : Uses pk xs)
    (hsk : Uses sk xs) (hitem : Uses item xs) (action : DbAction) :
    Uses (Step.storeRequest pk sk item action)
      ((Step.storeTemplate action).1.segments.flatMap (segmentSlots fun _ => xs)) := by
  apply textIn_uses (storeTemplate_stashless action)
  cases action <;>
    simp [Step.storeTemplate, Step.storeContext, getItemRequest, queryRequest, putItemRequest,
      deleteItemRequest, keyedRequest, -String.reduceAppend, hpk, hsk, hitem]

theorem emitRequest_uses {used : Expression → List Slot} {detail : List (String × Expression)}
    {source bus event : String}
    (hdetail : ∀ r ∈ detail, Avoids "$ctx.stash" r.1 ∧ Uses r.2.text (used r.2))
    (hsource : Avoids "$ctx.stash" source) (hbus : Avoids "$ctx.stash" bus)
    (hevent : Avoids "$ctx.stash" event) :
    Uses
      (emitRequest.textIn [
        ("detail", .rows (detail.map fun (key, e) => [key, e.text])),
        ("source", .text source), ("bus", .text bus), ("event", .text event)])
      ((detail.map Prod.snd).flatMap used) := by
  have hrows : Uses (rowsText "$util.qr($detail.put(\"" detail)
      ((detail.map Prod.snd).flatMap used) :=
    rowsText_uses (.of_chars (by decide)) hdetail
  have h : Uses
      (emitRequest.textIn [
        ("detail", .rows (detail.map fun (key, e) => [key, e.text])),
        ("source", .text source), ("bus", .text bus), ("event", .text event)])
      (emitRequest.segments.flatMap (segmentSlots fun name =>
        if name = "detail" then (detail.map Prod.snd).flatMap used else [])) :=
    textIn_uses (by simp [stashless])
      (by
        simp [emitRequest, -String.reduceAppend, pairsText_rows, hrows, Uses.of_avoids, hsource, hbus,
          hevent])
  simpa [emitRequest, -String.reduceAppend] using h

end Templates

section Expressions

variable {scope : Scope}

theorem Plain.avoids_stash {text : String} (h : Plain text) : Avoids "$ctx.stash" text :=
  unread_stash.avoids_plain h

theorem uses_baseText {value base : String} {kind : ReferenceKind} {fresh : Bool} {text : String}
    (h : BaseText scope value kind base) :
    Uses base ((Expression.reads ⟨kind, fresh, text⟩ scope).toList) := by
  have hdot : Avoids "$ctx.stash" "." := by decide
  have hquote : Avoids "$ctx.stash" "\"" := by decide
  cases h with
  | input hne hp =>
    cases scope with
    | direct =>
      have hargs : Avoids "$ctx.stash" "$ctx.args" := by decide
      exact .of_avoids ((hargs.append hdot).append hp.avoids_stash)
    | pipeline stored => exact ((Uses.path .input).behind hdot).behind hp.avoids_stash
  | result hscope hne hp => exact ((Uses.path .dbResult).behind hdot).behind hp.avoids_stash
  | literal hp =>
    have hliteral : Avoids "$ctx.stash" ("\"" ++ value ++ "\"") :=
      (hquote.append hp.avoids_stash).append hquote
    cases scope with
    | direct => exact .of_avoids hliteral
    | pipeline stored => exact .of_avoids hliteral

theorem uses_resolved {value : String} {e : Expression} (h : resolve value scope = .ok e) :
    Uses e.text (e.reads scope).toList := by
  obtain ⟨kind, base, hbase, rfl⟩ := resolve_eq_ok.1 h
  have hbase' : Uses base ((Expression.reads ⟨kind, mentionsId value, freshText value base⟩
      scope).toList) :=
    uses_baseText hbase
  simp only [freshText] at hbase' ⊢
  split
  · have hopen : Avoids "$ctx.stash" "$util.str.toReplace(" := .of_chars (by decide)
    have htoken : Avoids "$ctx.stash" ", \"" := .of_chars (by decide)
    have hid : Avoids "$ctx.stash" idToken := by decide
    have hclose : Avoids "$ctx.stash" "\", $util.autoId())" := .of_chars (by decide)
    exact (((hbase'.before hopen).behind htoken).behind hid).behind hclose
  · exact hbase'

end Expressions

section Steps

theorem slotsRead_eq (exprs : List Expression) (scope : Scope) :
    Step.slotsRead exprs scope = (exprs.flatMap fun e => (e.reads scope).toList).eraseDups := by
  suffices h : ∀ used : List Slot, exprs.foldl (Step.noteRead scope) used.eraseDups =
      (used ++ exprs.flatMap fun e => (e.reads scope).toList).eraseDups from h []
  induction exprs with
  | nil =>
    intro used
    rw [List.foldl_nil, List.flatMap_nil, List.append_nil]
  | cons e rest ih =>
    intro used
    have hnote : Step.noteRead scope used.eraseDups e =
        (used ++ (e.reads scope).toList).eraseDups := by
      unfold Step.noteRead
      cases e.reads scope with
      | none => simp
      | some s => simp [eraseDups_concat]
    rw [List.foldl_cons, hnote, ih, List.flatMap_cons, List.append_assoc]

/-- That the step declares the slots that its texts use: those whose paths stand in the request, each
once and in the order of their first uses, and the one that the response puts something into. -/
structure Step.DeclaresSlots (s : Step) : Prop where
  reads : ∀ slot : Slot, slot ∈ s.reads ↔ Contains s.requestTemplate slot.path
  nodup : s.reads.Nodup
  order : s.reads.Pairwise (UsedBefore s.requestTemplate.toList)
  writes : ∀ slot : Slot, s.writes = some slot ↔
    Contains s.responseTemplate ("$ctx.stash.put(\"" ++ slot.key ++ "\", ")

section Responses

attribute [local simp] textIn segmentsText Segment.textIn Inline.textIn text gap Context.text
  Context.get? List.lookup_cons Value.display Slot.key

theorem guardResponse_puts (slot : Slot) :
    ¬ Contains (guardResponse.textIn []) ("$ctx.stash.put(\"" ++ slot.key ++ "\", ") := by
  cases slot <;> simp [guardResponse] <;> exact contains_chars.not.2 (by decide)

theorem storeResponse_puts_iff (action : DbAction) (slot : Slot) :
    Contains (Step.storeResponse action) ("$ctx.stash.put(\"" ++ slot.key ++ "\", ") ↔
      slot = .dbResult := by
  cases slot with
  | dbResult => simpa using storeResponse_puts action
  | input | eventResult =>
    cases action <;>
      simp [Step.storeResponse, stashResultResponse, Step.storeTemplate] <;>
      exact contains_chars.not.2 (by decide)

theorem emitResponse_puts :
    Contains (emitResponse.textIn []) "$ctx.stash.put(\"eventresult\", " := by
  have hline : Contains
      "  $util.qr($ctx.stash.put(\"eventresult\", $util.parseJson($ctx.result.body)))\n"
      "$ctx.stash.put(\"eventresult\", " :=
    contains_chars.2 (by decide)
  simp only [emitResponse, textIn, segmentsText, Segment.textIn, Inline.textIn, text]
  -- The line stands in the middle of the text: what is behind it goes first, then what is in front.
  iterate 6 apply Contains.append_left
  exact hline.append_right _

theorem emitResponse_avoids {word : String}
    (h : word = "$ctx.stash.put(\"input\", " ∨ word = "$ctx.stash.put(\"dbresult\", ") :
    Avoids word (emitResponse.textIn []) := by
  simp only [emitResponse, textIn, segmentsText, Segment.textIn, Inline.textIn, text]
  obtain rfl | rfl := h
  all_goals
    repeat' first
      | with_reducible apply Avoids.append
      | exact .of_chars (by decide)

theorem emitResponse_puts_iff (slot : Slot) :
    Contains (emitResponse.textIn []) ("$ctx.stash.put(\"" ++ slot.key ++ "\", ") ↔
      slot = .eventResult := by
  cases slot with
  | input =>
    have h := (emitResponse_avoids (.inl rfl)).not_contains (by decide)
    simpa using h
  | dbResult =>
    have h := (emitResponse_avoids (.inr rfl)).not_contains (by decide)
    simpa using h
  | eventResult => simpa using emitResponse_puts

end Responses

theorem Step.declaresSlots_of_uses {s : Step} {slots : List Slot}
    (huses : Uses s.requestTemplate slots) (hreads : s.reads = slots.eraseDups)
    (hwrites : ∀ slot : Slot, s.writes = some slot ↔
      Contains s.responseTemplate ("$ctx.stash.put(\"" ++ slot.key ++ "\", ")) :
    s.DeclaresSlots := by
  rw [← huses.slotUses_eq] at hreads
  have horder : s.reads.Pairwise (UsedBefore s.requestTemplate.toList) := by
    rw [hreads]
    exact slotUses_pairwise _
  refine ⟨fun slot => ?_, ?_, horder, hwrites⟩
  · rw [hreads, List.mem_eraseDups, mem_slotUses, Contains]
  · apply horder.imp
    rintro slot _ ⟨k, hk, hlater⟩ rfl
    exact Nat.lt_irrefl k (hlater k hk)

theorem guard_declaresSlots {name pk sk : String} {scope : Scope} {s : Step}
    (h : Step.guard handles name pk sk scope = .ok s) : s.DeclaresSlots := by
  obtain ⟨p, k, hp, hk, rfl⟩ := Step.guard_eq_ok.1 h
  have huses : Uses (Step.guardOf handles name p k scope).requestTemplate
      ((p.reads scope).toList ++ (k.reads scope).toList) :=
    guardRequest_uses (uses_resolved hp) (uses_resolved hk)
  apply Step.declaresSlots_of_uses huses
  · rw [Step.guardOf, Step.build, slotsRead_eq, List.flatMap_cons, List.flatMap_cons,
      List.flatMap_nil, List.append_nil]
  · intro slot
    exact iff_of_false (Option.some_ne_none slot).symm (guardResponse_puts slot)

theorem data_declaresSlots {name : String} {action : DbAction} {s : Step}
    (h : Step.data handles name action = .ok s) : s.DeclaresSlots := by
  rw [Step.data_eq, Except.ok.injEq] at h
  subst h
  have hinput : Uses Slot.input.path [.input] := .path .input
  have hpk : Uses (Slot.input.path ++ ".pk") [.input] := hinput.behind (by decide)
  have hsk : Uses (Slot.input.path ++ ".sk") [.input] := hinput.behind (by decide)
  have huses : Uses (Step.dataOf handles name action).requestTemplate
      ((Step.storeTemplate action).1.segments.flatMap (segmentSlots fun _ => [.input])) :=
    storeRequest_uses hpk hsk hinput action
  apply Step.declaresSlots_of_uses huses
  · cases action <;> rfl
  · intro slot
    have hwrites : (Step.dataOf handles name action).writes = some .dbResult := by
      cases action <;> rfl
    rw [hwrites, Option.some.injEq, eq_comm]
    exact (storeResponse_puts_iff action slot).symm

theorem emit_declaresSlots {name : String} {envelope : Step.Envelope} {scope : Scope} {s : Step}
    (h : Step.emit handles name envelope scope = .ok s) : s.DeclaresSlots := by
  obtain ⟨hsource, hbus, hevent, detail, hdetail, rfl⟩ := Step.emit_eq_ok.1 h
  have hrows : ∀ r ∈ detail, Avoids "$ctx.stash" r.1 ∧ Uses r.2.text (r.2.reads scope).toList := by
    intro r hr
    obtain ⟨entry, -, hentry⟩ := exists_mem_of_forall₂ hdetail hr
    exact ⟨hentry.plain.avoids_stash, uses_resolved hentry.resolve_eq⟩
  have huses : Uses
      (Step.emitOf handles name detail envelope.source envelope.bus envelope.event
        scope).requestTemplate
      ((detail.map Prod.snd).flatMap fun e => (e.reads scope).toList) :=
    emitRequest_uses hrows hsource.avoids_stash hbus.avoids_stash hevent.avoids_stash
  apply Step.declaresSlots_of_uses huses
  · rw [Step.emitOf, Step.build, slotsRead_eq]
  · intro slot
    have hwrites : StepKind.emitEvent.writes = some .eventResult := rfl
    rw [Step.emitOf, Step.build, hwrites, Option.some.injEq, eq_comm]
    exact (emitResponse_puts_iff slot).symm

/-- Whatever a step is built from, and in whichever scope, it declares the slots that its texts use. -/
theorem built_declaresSlots :
    (∀ {handles : Handles} {name pk sk : String} {scope : Scope} {s : Step},
      Step.guard handles name pk sk scope = .ok s → s.DeclaresSlots) ∧
    (∀ {handles : Handles} {name : String} {action : DbAction} {s : Step},
      Step.data handles name action = .ok s → s.DeclaresSlots) ∧
    ∀ {handles : Handles} {name : String} {envelope : Step.Envelope} {scope : Scope} {s : Step},
      Step.emit handles name envelope scope = .ok s → s.DeclaresSlots :=
  ⟨guard_declaresSlots, data_declaresSlots, emit_declaresSlots⟩

def lookalikeEvent : Step.Envelope where
  bus := "ctx.stash.dbresult"
  source := "ctx.stash.input"
  event := "ctx.stash.put"
  detail := .ofList [
    ("ctx.stash.eventresult", "owner@id"), ("id", "#sk"), ("by", "$ctx.stash.input")]

theorem lookalike_declaresSlots :
    (∃ s, Step.guard {} "guard" "#owner@id" "$ctx.stash.dbresult" (.pipeline true) = .ok s ∧
      s.reads = [.dbResult, .input] ∧ s.DeclaresSlots) ∧
    (∃ s, Step.data {} "data" .list = .ok s ∧ s.reads = [.input] ∧ s.DeclaresSlots) ∧
    (∃ s, Step.emit {} "emit" lookalikeEvent (.pipeline true) = .ok s ∧
      s.reads = [.dbResult, .input] ∧ s.DeclaresSlots) ∧
    ∃ s, Step.guard {} "guard" "$ctx.stash.input" "ctx.stash" .direct = .ok s ∧
      s.reads = [] ∧ s.DeclaresSlots := by
  have hguard : (Step.guard {} "guard" "#owner@id" "$ctx.stash.dbresult" (.pipeline true)).map
      Step.reads = .ok [.dbResult, .input] := by decide +kernel
  have hdata : (Step.data {} "data" .list).map Step.reads = .ok [.input] := by decide +kernel
  have hemit : (Step.emit {} "emit" lookalikeEvent (.pipeline true)).map Step.reads =
      .ok [.dbResult, .input] := by decide +kernel
  have hdirect : (Step.guard {} "guard" "$ctx.stash.input" "ctx.stash" .direct).map Step.reads =
      .ok [] := by decide +kernel
  obtain ⟨guard, hguard, hguardReads⟩ := map_eq_ok.1 hguard
  obtain ⟨data, hdata, hdataReads⟩ := map_eq_ok.1 hdata
  obtain ⟨emit, hemit, hemitReads⟩ := map_eq_ok.1 hemit
  obtain ⟨direct, hdirect, hdirectReads⟩ := map_eq_ok.1 hdirect
  exact ⟨⟨guard, hguard, hguardReads, built_declaresSlots.1 hguard⟩,
    ⟨data, hdata, hdataReads, built_declaresSlots.2.1 hdata⟩,
    ⟨emit, hemit, hemitReads, built_declaresSlots.2.2 hemit⟩,
    ⟨direct, hdirect, hdirectReads, built_declaresSlots.1 hdirect⟩⟩

end Steps

end ResolverPipeline
