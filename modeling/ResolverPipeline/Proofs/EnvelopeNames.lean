import ResolverPipeline.Proofs.JsonText
import ResolverPipeline.Proofs.Lossless

namespace ResolverPipeline

open Template

namespace Json

def Unescaped (c : Char) : Prop := c ≠ '\\' ∧ 0x20 ≤ c.toNat

instance (c : Char) : Decidable (Unescaped c) := by unfold Unescaped; infer_instance

def Verbatim (text : String) : Prop := ∀ c ∈ text.toList, Unescaped c

instance (text : String) : Decidable (Verbatim text) := List.decidableBAll Unescaped text.toList

/-- That all of a text is one JSON string, and what it stands for. -/
def Literal (text value : String) : Prop :=
  ∃ body, text.toList = '"' :: body ∧ readString body = some (value.toList, [])

section Lengths

attribute [local simp] Option.bind_eq_some_iff

theorem scanString_length {cs rest : List Char} {ps : List Token.Piece}
    (h : Token.scanString cs = some (ps, rest)) :
    ps.length + 1 + rest.length ≤ cs.length ∧
      (ps.length + 1 + rest.length = cs.length → ∀ c ∈ cs.take ps.length, Unescaped c) := by
  -- A part takes a character at least, and the closing quote one more; an escaped part takes several.
  fun_induction Token.scanString cs generalizing ps rest with
  | case1 => cases h
  | case2 after =>
    cases h
    simp [Nat.add_comm]
  | case3 a b c d cs ih =>
    obtain ⟨n, -, ps, hps, rfl⟩ : ∃ n, Text.hexNumber 4 0 [a, b, c, d] = some n ∧ ∃ ps',
        Token.scanString cs = some (ps', rest) ∧ .unit n :: ps' = ps := by simpa using h
    obtain ⟨hle, -⟩ := ih hps
    simp only [List.length_cons]
    exact ⟨by omega, by omega⟩
  | case4 e cs _ ih =>
    obtain ⟨c, -, ps, hps, rfl⟩ : ∃ c, Token.unescape e = some c ∧ ∃ ps',
        Token.scanString cs = some (ps', rest) ∧ .char c :: ps' = ps := by simpa using h
    obtain ⟨hle, -⟩ := ih hps
    simp only [List.length_cons]
    exact ⟨by omega, by omega⟩
  | case5 => cases h
  | case6 c cs _ _ hescape hcontrol ih =>
    obtain ⟨ps, hps, rfl⟩ : ∃ ps', Token.scanString cs = some (ps', rest) ∧
        .char c :: ps' = ps := by simpa using h
    obtain ⟨hle, htight⟩ := ih hps
    have hplain : c ≠ '\\' := by
      rintro rfl
      cases cs with
      | nil => cases hps
      | cons e cs => exact hescape e cs rfl rfl
    simp only [List.length_cons, List.take_succ_cons, List.forall_mem_cons]
    exact ⟨by omega, fun heq => ⟨⟨hplain, by omega⟩, htight (by omega)⟩⟩

theorem text?_length {ps : List Token.Piece} {cs : List Char} (h : Token.text? ps = some cs) :
    cs.length ≤ ps.length := by
  fun_induction Token.text? ps generalizing cs with
  | case1 =>
    cases h
    exact Nat.le_refl _
  | case2 c ps ih =>
    obtain ⟨cs, hcs, rfl⟩ : ∃ cs', Token.text? ps = some cs' ∧ c :: cs' = cs := by simpa using h
    exact Nat.succ_le_succ (ih hcs)
  | case3 n ps _ ih =>
    obtain ⟨cs, hcs, rfl⟩ : ∃ cs', Token.text? ps = some cs' ∧ _ :: cs' = cs := by simpa using h
    exact Nat.succ_le_succ (ih hcs)
  | case4 n _ k ps _ ih =>
    obtain ⟨cs, hcs, rfl⟩ : ∃ cs', Token.text? ps = some cs' ∧ _ :: cs' = cs := by simpa using h
    exact Nat.le_succ_of_le (Nat.succ_le_succ (ih hcs))
  | case5 => cases h
  | case6 => cases h

theorem readString_verbatim {cs : List Char} (h : ∀ c ∈ cs, c ≠ '"' ∧ Unescaped c)
    (rest : List Char) : readString (cs ++ '"' :: rest) = some (cs, rest) := by
  induction cs with
  | nil => rfl
  | cons c cs ih =>
    rw [List.forall_mem_cons] at h
    obtain ⟨⟨hquote, hescape, hcontrol⟩, hcs⟩ := h
    have hscan := scanString_char hquote hescape (Nat.not_lt.2 hcontrol) (cs ++ '"' :: rest)
    rw [List.cons_append, readString_piece hscan (text?_char c), ih hcs, Option.map_some]

theorem unescaped_of_readString {cs rest : List Char}
    (h : readString (cs ++ '"' :: rest) = some (cs, rest)) : ∀ c ∈ cs, Unescaped c := by
  obtain ⟨ps, hscan, htext⟩ : ∃ ps, Token.scanString (cs ++ '"' :: rest) = some (ps, rest) ∧
      Token.text? ps = some cs := by
    simpa [readString] using h
  have hlength := text?_length htext
  obtain ⟨hle, htight⟩ := scanString_length hscan
  rw [List.length_append, List.length_cons] at hle htight
  have hps : ps.length = cs.length := by omega
  rw [hps, List.take_left] at htight
  exact htight (by omega)

end Lengths

end Json

def quoted (text : String) : String := "\"" ++ text ++ "\""

theorem quoted_literal_iff {name : String} (h : Plain name) :
    Json.Literal (quoted name) name ↔ Json.Verbatim name := by
  have hquoted : (quoted name).toList = '"' :: (name.toList ++ ['"']) := by simp [quoted]
  constructor
  · rintro ⟨body, hbody, hread⟩
    rw [hquoted, List.cons.injEq] at hbody
    rw [← hbody.2] at hread
    exact Json.unescaped_of_readString hread
  · intro hchars
    refine ⟨_, hquoted, Json.readString_verbatim (fun c hc => ⟨?_, hchars c hc⟩) []⟩
    rintro rfl
    exact h.1 hc

def entryOpening (detail : List (String × Expression)) : String :=
  "#set($detail = \x7b\x7d)\n" ++ rowsText "$util.qr($detail.put(\"" detail ++
    ("\x7b\n" ++
    "  \"version\": \"2018-05-29\",\n" ++
    "  \"method\": \"POST\",\n" ++
    "  \"resourcePath\": \"/\",\n" ++
    "  \"params\": \x7b\n" ++
    "    \"headers\": \x7b\n" ++
    "      \"content-type\": \"application/x-amz-json-1.1\",\n" ++
    "      \"x-amz-target\": \"AWSEvents.PutEvents\"\n" ++
    "    \x7d,\n" ++
    "    \"body\": \x7b\n" ++
    "      \"Entries\": [\n" ++
    "        \x7b\n")

def entryMembers (source bus event : String) : String :=
  "          \"Source\": " ++ source ++
  (",\n" ++ "          \"EventBusName\": ") ++ bus ++
  (",\n" ++ "          \"Detail\": $util.toJson($util.toJson($detail)),\n" ++
    "          \"DetailType\": ") ++ event

def entryClosing : String :=
  "\n" ++
  "        \x7d\n" ++
  "      ]\n" ++
  "    \x7d\n" ++
  "  \x7d\n" ++
  "\x7d"

theorem emitRequest_entry (detail : List (String × Expression)) (source bus event : String) :
    emitRequest.textIn [
        ("detail", .rows (detail.map fun (key, e) => [key, e.text])),
        ("source", .text source), ("bus", .text bus), ("event", .text event)] =
      entryOpening detail ++ entryMembers (quoted source) (quoted bus) (quoted event) ++
        entryClosing := by
  -- The fixed texts stand behind variables from here on.
  obtain ⟨opening, a, b, c, hopening, hmembers, hsegments⟩ : ∃ opening a b c : String,
      entryOpening detail =
        "#set($detail = \x7b\x7d)\n" ++ rowsText "$util.qr($detail.put(\"" detail ++ opening ∧
      (∀ s t u, entryMembers s t u = a ++ s ++ b ++ t ++ c ++ u) ∧
      emitRequest.segments = [text "#set($detail = \x7b\x7d)\n",
        .pairs "detail" 2 [
          .text "$util.qr($detail.put(\"", .gap "key" 3, .text "\", ", .gap "value" 3, .text "))\n"],
        text (opening ++ (a ++ "\"")), gap "source" 17, text ("\"" ++ (b ++ "\"")), gap "bus" 18,
        text ("\"" ++ (c ++ "\"")), gap "event" 20, text ("\"" ++ entryClosing)] :=
    ⟨_, _, _, _, rfl, fun _ _ _ => rfl, by decide +kernel⟩
  rw [hopening, hmembers]
  simp [textIn, segmentsText, Segment.textIn, Inline.textIn, text, gap, Context.text, Context.pairs,
    Context.get?, List.lookup_cons, Value.display, pairs_rows, pairsText_rows, hsegments, quoted,
    String.append_assoc]

/-- The request of a step that emits an event says each name of the envelope, as a string of its body,
exactly if no character of the name is a backslash or a control character. -/
theorem emit_namesSaid {handles : Handles} {name : String} {envelope : Step.Envelope} {scope : Scope}
    {s : Step} (h : Step.emit handles name envelope scope = .ok s) :
    ∃ detail, List.Forall₂ (ResolvedEntry scope) envelope.detail.entries detail ∧
      s.requestTemplate = entryOpening detail ++ entryMembers (quoted envelope.source)
        (quoted envelope.bus) (quoted envelope.event) ++ entryClosing ∧
      ∀ text ∈ [envelope.source, envelope.bus, envelope.event],
        Json.Literal (quoted text) text ↔ Json.Verbatim text := by
  obtain ⟨hsource, hbus, hevent, detail, hdetail, rfl⟩ := Step.emit_eq_ok.1 h
  refine ⟨detail, hdetail, emitRequest_entry detail _ _ _, ?_⟩
  simp only [List.forall_mem_cons]
  exact ⟨quoted_literal_iff hsource, quoted_literal_iff hbus, quoted_literal_iff hevent, nofun⟩

theorem escapedEvent_namesSaid : ∃ s,
    Step.emit {} "e" ⟨"default", "source.notes", "kept\\new", .ofList [("by", "$user@id")]⟩
      (.pipeline false) = .ok s ∧
    Json.Literal (quoted "source.notes") "source.notes" ∧ Json.Literal (quoted "default") "default" ∧
    ¬ Json.Literal (quoted "kept\\new") "kept\\new" := by
  obtain ⟨s, h⟩ := exists_ok_of_isOk (by decide +kernel : (Step.emit {} "e"
    ⟨"default", "source.notes", "kept\\new", .ofList [("by", "$user@id")]⟩ (.pipeline false)).isOk = true)
  obtain ⟨-, -, -, hnames⟩ := emit_namesSaid h
  exact ⟨s, h, (hnames "source.notes" (by simp)).2 (by decide),
    (hnames "default" (by simp)).2 (by decide),
    (hnames "kept\\new" (by simp)).not.2 (by decide)⟩

/-- A backslash at the end of an event's name takes the closing quote for a part of the name, and the
body is no JSON. -/
theorem trailingBackslash_notSaid : ∃ s,
    Step.emit {} "e" ⟨"default", "source.a", "a\\", .ofList []⟩ (.pipeline false) = .ok s ∧
    s.requestTemplate = entryOpening [] ++ entryMembers (quoted "source.a") (quoted "default")
      (quoted "a\\") ++ entryClosing ∧
    ¬ Json.Literal (quoted "a\\") "a\\" ∧
    Json.readString ("a\\" ++ "\"" ++ entryClosing).toList = none := by
  obtain ⟨s, h⟩ := exists_ok_of_isOk (by decide +kernel : (Step.emit {} "e"
    ⟨"default", "source.a", "a\\", .ofList []⟩ (.pipeline false)).isOk = true)
  obtain ⟨-, -, hplain, detail, hdetail, hs⟩ := Step.emit_eq_ok.1 h
  cases hdetail
  exact ⟨s, h, by rw [← hs]; exact emitRequest_entry [] _ _ _,
    (quoted_literal_iff hplain).not.2 (by decide), by decide +kernel⟩

end ResolverPipeline
