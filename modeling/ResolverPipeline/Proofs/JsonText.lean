import Mathlib.Data.List.Forall2
import ResolverPipeline.Decimal.Notation
import ResolverPipeline.Json.Node
import ResolverPipeline.Json.Writer

namespace ResolverPipeline.Json

def Number.text : Number → String
  | .whole n => toString n
  | .real x => x.plain

namespace Node

mutual

def ofTree : Tree → Node
  | .text s => .string (some s)
  | .list items => .array (ofItems items) true
  | .record members => .object (ofMembers members) true

def ofItems : List Tree → List Node
  | [] => []
  | t :: rest => ofTree t :: ofItems rest

def ofMembers : List (String × Tree) → List (Option String × Node)
  | [] => []
  | (name, t) :: rest => (some name, ofTree t) :: ofMembers rest

end

end Node

namespace Token

mutual

def ofTree : Tree → List Token
  | .text s => [.string (some s)]
  | .list items => [.openBracket] ++ [.comma].intercalate (ofItems items) ++ [.closeBracket]
  | .record members => [.openBrace] ++ [.comma].intercalate (ofMembers members) ++ [.closeBrace]

def ofItems : List Tree → List (List Token)
  | [] => []
  | t :: rest => ofTree t :: ofItems rest

def ofMembers : List (String × Tree) → List (List Token)
  | [] => []
  | (name, t) :: rest => ([.string (some name)] ++ [.colon] ++ ofTree t) :: ofMembers rest

end

end Token

section Scanning

def Scans (cs : List Char) (ts : List Token) : Prop :=
  ∀ fuel, cs.length ≤ fuel → Token.scanAll fuel cs = ts

theorem scans_nil : Scans [] [] := by
  intro fuel _
  cases fuel <;> rfl

theorem Scans.next {cs rest : List Char} {c : Char} {t : Token} {ts : List Token}
    (hblank : Token.isBlank c = false) (hnext : Token.next (c :: cs) = some (t, rest))
    (hlength : rest.length ≤ cs.length) (h : Scans rest ts) : Scans (c :: cs) (t :: ts) := by
  intro fuel hfuel
  cases fuel with
  | zero => cases hfuel
  | succ fuel =>
    have hdrop : (c :: cs).dropWhile Token.isBlank = c :: cs := by simp [hblank]
    rw [Token.scanAll, hdrop]
    simp only [hnext, List.cons.injEq, true_and]
    exact h fuel (Nat.le_trans hlength (Nat.le_of_succ_le_succ hfuel))

theorem Scans.blank {cs : List Char} {c : Char} {ts : List Token} (hblank : Token.isBlank c = true)
    (h : Scans cs ts) : Scans (c :: cs) ts := by
  intro fuel hfuel
  rw [← h fuel (Nat.le_of_succ_le hfuel)]
  cases fuel with
  | zero => rfl
  | succ fuel => rw [Token.scanAll, Token.scanAll, List.dropWhile_cons_of_pos hblank]

/-- That the text is scanned into the tokens wherever it stands. -/
def Writes (s : String) (ts : List Token) : Prop :=
  ∀ cs rest, Scans cs rest → Scans (s.toList ++ cs) (ts ++ rest)

theorem Writes.scan {s : String} {ts : List Token} (h : Writes s ts) :
    Token.scan s.toList = ts := by
  have hscans := h [] [] scans_nil
  rw [List.append_nil, List.append_nil] at hscans
  exact hscans _ (Nat.le_refl _)

theorem Writes.append {s s' : String} {ts ts' : List Token} (h : Writes s ts) (h' : Writes s' ts') :
    Writes (s ++ s') (ts ++ ts') := by
  intro cs rest hrest
  rw [String.toList_append, List.append_assoc, List.append_assoc]
  exact h _ _ (h' _ _ hrest)

theorem writes_blanks {s : String} (h : ∀ c ∈ s.toList, Token.isBlank c = true) : Writes s [] := by
  intro cs rest hrest
  rw [List.nil_append]
  revert h
  induction s.toList with
  | nil => exact fun _ => hrest
  | cons c tail ih =>
    intro h
    rw [List.forall_mem_cons] at h
    exact (ih h.2).blank h.1

theorem writes_openBracket : Writes "[" [.openBracket] :=
  fun _ _ h => h.next rfl rfl (Nat.le_refl _)

theorem writes_closeBracket : Writes "]" [.closeBracket] :=
  fun _ _ h => h.next rfl rfl (Nat.le_refl _)

theorem writes_openBrace : Writes "\x7b" [.openBrace] :=
  fun _ _ h => h.next rfl rfl (Nat.le_refl _)

theorem writes_closeBrace : Writes "\x7d" [.closeBrace] :=
  fun _ _ h => h.next rfl rfl (Nat.le_refl _)

theorem writes_comma : Writes "," [.comma] := fun _ _ h => h.next rfl rfl (Nat.le_refl _)

theorem writes_colon : Writes ":" [.colon] := fun _ _ h => h.next rfl rfl (Nat.le_refl _)

def readString (cs : List Char) : Option (List Char × List Char) := do
  let (ps, rest) ← Token.scanString cs
  return (← Token.text? ps, rest)

theorem readString_piece {cs rest : List Char} {piece : Token.Piece} {c : Char}
    (hscan : Token.scanString cs = (Token.scanString rest).map fun p => (piece :: p.1, p.2))
    (htext : ∀ ps, Token.text? (piece :: ps) = (Token.text? ps).map (c :: ·)) :
    readString cs = (readString rest).map fun p => (c :: p.1, p.2) := by
  rw [readString, readString, hscan]
  cases Token.scanString rest with
  | none => rfl
  | some p =>
    obtain ⟨ps, after⟩ := p
    simp only [Option.map_some, Option.bind_eq_bind, Option.bind_some, htext]
    cases Token.text? ps <;> rfl

theorem scanString_escape {e c : Char} (hu : e ≠ 'u') (h : Token.unescape e = some c)
    (rest : List Char) : Token.scanString ('\\' :: e :: rest) =
      (Token.scanString rest).map fun p => (.char c :: p.1, p.2) := by
  rw [Token.scanString, h]
  · cases Token.scanString rest <;> rfl
  · exact fun _ _ _ _ _ he _ => hu he

theorem scanString_char {c : Char} (hquote : c ≠ '"') (hescape : c ≠ '\\') (h : ¬ c.toNat < 0x20)
    (rest : List Char) : Token.scanString (c :: rest) =
      (Token.scanString rest).map fun p => (.char c :: p.1, p.2) := by
  rw [Token.scanString, if_neg h]
  · cases Token.scanString rest <;> rfl
  · exact hquote
  · exact fun _ _ _ _ _ hc _ => hescape hc
  · exact fun _ _ hc _ => hescape hc

theorem scanString_unit {a b c d : Char} {n : Nat} (h : Text.hexNumber 4 0 [a, b, c, d] = some n)
    (rest : List Char) : Token.scanString ('\\' :: 'u' :: a :: b :: c :: d :: rest) =
      (Token.scanString rest).map fun p => (.unit n :: p.1, p.2) := by
  rw [Token.scanString, h]
  cases Token.scanString rest <;> rfl

theorem text?_char (c : Char) (ps : List Token.Piece) :
    Token.text? (.char c :: ps) = (Token.text? ps).map (c :: ·) := by
  rw [Token.text?]
  cases Token.text? ps <;> rfl

theorem text?_unit {n : Nat} (h : n < 0xD800) (ps : List Token.Piece) :
    Token.text? (.unit n :: ps) = (Token.text? ps).map (.ofNat n :: ·) := by
  rw [Token.text?.eq_def]
  simp only [h, decide_true, Bool.true_or, if_true]
  cases Token.text? ps <;> rfl

theorem hexNumber_hexPadded {n : Nat} (h : n < 0x20) : ∃ a b c d,
    (Text.hexPadded 4 n).toList = [a, b, c, d] ∧ Text.hexNumber 4 0 [a, b, c, d] = some n := by
  have hdigits : (Text.hexPadded 4 n).toList.length = 4 ∧
      Text.hexNumber 4 0 (Text.hexPadded 4 n).toList = some n := by
    simp only [Text.hexPadded, String.toList_ofList]
    revert n
    decide +kernel
  generalize (Text.hexPadded 4 n).toList = digits at hdigits
  match digits, hdigits with
  | [a, b, c, d], ⟨_, hnumber⟩ => exact ⟨a, b, c, d, rfl, hnumber⟩

theorem readString_escapedChar (c : Char) (rest : List Char) :
    readString ((escapedChar c).toList ++ rest) =
      (readString rest).map fun p => (c :: p.1, p.2) := by
  have hescape : ∀ {text : String} {e : Char}, text = String.ofList ['\\', e] → e ≠ 'u' →
      Token.unescape e = some c →
      readString (text.toList ++ rest) = (readString rest).map fun p => (c :: p.1, p.2) := by
    rintro _ e rfl hu h
    rw [String.toList_ofList]
    exact readString_piece (scanString_escape hu h rest) (text?_char c)
  unfold escapedChar
  split
  iterate 7
    · exact hescape rfl (by decide) rfl
  · rename_i hquote hbackslash _ _ _ _ _
    split
    · rename_i hcontrol
      obtain ⟨a, b, d, e, hdigits, hnumber⟩ := hexNumber_hexPadded hcontrol
      have htext : ∀ ps, Token.text? (.unit c.toNat :: ps) = (Token.text? ps).map (c :: ·) := by
        intro ps
        rw [text?_unit (by omega), Char.ofNat_toNat]
      rw [String.toList_append, hdigits]
      exact readString_piece (scanString_unit hnumber rest) htext
    · rename_i hcontrol
      rw [String.toList_singleton]
      exact readString_piece (scanString_char hquote hbackslash hcontrol rest) (text?_char c)

theorem readString_escaped (cs rest : List Char) :
    readString ((String.join (cs.map escapedChar)).toList ++ '"' :: rest) = some (cs, rest) := by
  induction cs with
  | nil => rfl
  | cons c tail ih =>
    rw [List.map_cons, String.join_cons, String.toList_append, List.append_assoc,
      readString_escapedChar, ih, Option.map_some]

theorem next_string {cs s rest : List Char} (h : readString cs = some (s, rest)) :
    Token.next ('"' :: cs) = some (.string (some (String.ofList s)), rest) := by
  simp only [readString, Option.bind_eq_bind, Option.bind_eq_some_iff, Option.pure_def,
    Option.some.injEq, Prod.mk.injEq] at h
  obtain ⟨⟨ps, after⟩, hscan, _, htext, rfl, rfl⟩ := h
  have hnext : Token.next ('"' :: cs) = (Token.scanString cs).bind fun r =>
      some (.string ((Token.text? r.1).map String.ofList), r.2) := rfl
  rw [hnext, hscan, Option.bind_some, htext, Option.map_some]

theorem writes_string (s : String) : Writes (string s) [.string (some s)] := by
  intro cs rest hrest
  have hread := readString_escaped s.toList cs
  have htext : (string s).toList ++ cs =
      '"' :: ((String.join (s.toList.map escapedChar)).toList ++ '"' :: cs) := by
    simp [string]
  have hnext := next_string hread
  rw [String.ofList_toList] at hnext
  rw [htext]
  exact hrest.next rfl hnext (by simp; omega)

theorem writes_intercalate {separator : String} {ss : List String} {tss : List (List Token)}
    (hseparator : Writes separator [.comma]) (h : List.Forall₂ Writes ss tss) :
    Writes (separator.intercalate ss) ([.comma].intercalate tss) := by
  induction h with
  | nil => exact writes_blanks (by simp)
  | @cons s ts ss tss hs hrest ih =>
    cases hrest with
    | nil => simpa using hs
    | cons _ _ =>
      rw [String.intercalate_cons_cons, List.intercalate_cons_cons]
      exact (hs.append hseparator).append ih

mutual

theorem writes_compact : ∀ t : Tree, Writes (compact t) (Token.ofTree t)
  | .text s => writes_string s
  | .list items =>
    (writes_openBracket.append (writes_intercalate writes_comma (writes_compactItems items))).append
      writes_closeBracket
  | .record members =>
    (writes_openBrace.append (writes_intercalate writes_comma (writes_compactMembers members))).append
      writes_closeBrace

theorem writes_compactItems : ∀ items : List Tree,
    List.Forall₂ Writes (compactItems items) (Token.ofItems items)
  | [] => .nil
  | t :: rest => .cons (writes_compact t) (writes_compactItems rest)

theorem writes_compactMembers : ∀ members : List (String × Tree),
    List.Forall₂ Writes (compactMembers members) (Token.ofMembers members)
  | [] => .nil
  | (name, t) :: rest =>
    .cons (((writes_string name).append writes_colon).append (writes_compact t))
      (writes_compactMembers rest)

end

theorem writes_lineBreak (n : Nat) : Writes ("\n" ++ String.ofList (List.replicate n ' ')) [] := by
  apply writes_blanks
  intro c hc
  simp only [String.toList_append, String.toList_ofList, List.mem_append, List.mem_replicate] at hc
  obtain hc | ⟨-, rfl⟩ := hc
  · obtain rfl : c = '\n' := by simpa using hc
    rfl
  · rfl

theorem writes_block {opening closing : String} {o c : Token} {items : List String}
    {tss : List (List Token)} (hopening : Writes opening [o]) (hclosing : Writes closing [c])
    (h : List.Forall₂ Writes items tss) (indent : Nat) :
    Writes (block opening closing indent items) ([o] ++ [.comma].intercalate tss ++ [c]) := by
  unfold block
  split
  · rename_i hempty
    obtain rfl := List.isEmpty_iff.1 hempty
    cases h
    exact hopening.append hclosing
  · have hseparator := writes_comma.append (writes_lineBreak (indent + 2))
    have hitems := (hopening.append (writes_lineBreak (indent + 2))).append
      (writes_intercalate hseparator h)
    have hclosed := (hitems.append (writes_lineBreak indent)).append hclosing
    simpa [String.append_assoc] using hclosed

theorem writes_colonBlank : Writes ": " [.colon] := by
  intro cs rest h
  have hblank : Scans (' ' :: cs) rest := h.blank rfl
  exact hblank.next rfl rfl (Nat.le_refl _)

mutual

theorem writes_indented (indent : Nat) : ∀ t : Tree, Writes (indented indent t) (Token.ofTree t)
  | .text s => writes_string s
  | .list items =>
    writes_block writes_openBracket writes_closeBracket (writes_indentedItems (indent + 2) items) _
  | .record members =>
    writes_block writes_openBrace writes_closeBrace (writes_indentedMembers (indent + 2) members) _

theorem writes_indentedItems (indent : Nat) : ∀ items : List Tree,
    List.Forall₂ Writes (indentedItems indent items) (Token.ofItems items)
  | [] => .nil
  | t :: rest => .cons (writes_indented indent t) (writes_indentedItems indent rest)

theorem writes_indentedMembers (indent : Nat) : ∀ members : List (String × Tree),
    List.Forall₂ Writes (indentedMembers indent members) (Token.ofMembers members)
  | [] => .nil
  | (name, t) :: rest =>
    .cons (((writes_string name).append writes_colonBlank).append (writes_indented indent t))
      (writes_indentedMembers indent rest)

end

end Scanning

section Parsing

theorem intercalate_ofItems (t u : Tree) (rest : List Tree) :
    [Token.comma].intercalate (Token.ofItems (t :: u :: rest)) =
      Token.ofTree t ++ .comma :: [Token.comma].intercalate (Token.ofItems (u :: rest)) := by
  simp [Token.ofItems, List.intercalate_cons_cons]

theorem intercalate_ofMembers (name : String) (t : Tree) (u : String × Tree)
    (rest : List (String × Tree)) :
    [Token.comma].intercalate (Token.ofMembers ((name, t) :: u :: rest)) =
      .string (some name) :: .colon :: (Token.ofTree t ++
        .comma :: [Token.comma].intercalate (Token.ofMembers (u :: rest))) := by
  simp [Token.ofMembers, List.intercalate_cons_cons]

theorem ofItems_head (t : Tree) (rest : List Tree) : ∃ head tail,
    [Token.comma].intercalate (Token.ofItems (t :: rest)) = head :: tail ∧ head ≠ .closeBracket := by
  have hfirst : ∃ head tail, Token.ofTree t = head :: tail ∧ head ≠ .closeBracket := by
    cases t with
    | text s => exact ⟨_, _, rfl, by simp⟩
    | list items => exact ⟨_, _, rfl, by simp⟩
    | record members => exact ⟨_, _, rfl, by simp⟩
  obtain ⟨head, tail, ht, hhead⟩ := hfirst
  cases rest with
  | nil => exact ⟨head, tail, by simp [Token.ofItems, ht], hhead⟩
  | cons u rest => exact ⟨head, _, by rw [intercalate_ofItems, ht, List.cons_append], hhead⟩

theorem ofMembers_head (name : String) (t : Tree) (rest : List (String × Tree)) : ∃ tail,
    [Token.comma].intercalate (Token.ofMembers ((name, t) :: rest)) =
      .string (some name) :: tail := by
  cases rest with
  | nil => exact ⟨_, by simp [Token.ofMembers]; rfl⟩
  | cons u rest => exact ⟨_, intercalate_ofMembers name t u rest⟩

theorem parse_openBracket {head : Token} (h : head ≠ .closeBracket) (fuel : Nat) (ts : List Token) :
    Node.parse (fuel + 1) (.openBracket :: head :: ts) =
      ((.array (Node.parseItems fuel (head :: ts)).1 (Node.parseItems fuel (head :: ts)).2.1),
        (Node.parseItems fuel (head :: ts)).2.2) := by
  rw [Node.parse]
  intro ts' hts
  exact h (List.cons.inj hts).1

theorem parse_openBrace (key : Option String) (fuel : Nat) (ts : List Token) :
    Node.parse (fuel + 1) (.openBrace :: .string key :: ts) =
      ((.object (Node.parseMembers fuel (.string key :: ts)).1
          (Node.parseMembers fuel (.string key :: ts)).2.1),
        (Node.parseMembers fuel (.string key :: ts)).2.2) := rfl

mutual

theorem parse_ofTree : ∀ (t : Tree) (fuel : Nat) (ts : List Token),
    (Token.ofTree t).length ≤ fuel → Node.parse fuel (Token.ofTree t ++ ts) = (Node.ofTree t, ts)
  | .text s, 0, _, h => absurd h (Nat.not_succ_le_zero 0)
  | .text s, fuel + 1, ts, _ => rfl
  | .list [], 0, _, h => absurd h (Nat.not_succ_le_zero 1)
  | .list [], fuel + 1, ts, _ => rfl
  | .list (t :: rest), fuel, ts, h => by
    obtain ⟨head, tail, hitems, hhead⟩ := ofItems_head t rest
    simp only [Token.ofTree, List.length_append, List.length_singleton] at h
    obtain ⟨fuel, rfl⟩ : ∃ n, fuel = n + 1 := ⟨fuel - 1, by omega⟩
    have hparse := parseItems_ofItems (t :: rest) fuel ts (List.cons_ne_nil t rest) (by omega)
    rw [hitems, List.cons_append] at hparse
    simp only [Token.ofTree, hitems, List.append_assoc, List.cons_append, List.nil_append]
    rw [parse_openBracket hhead, hparse, Node.ofTree]
  | .record [], 0, _, h => absurd h (Nat.not_succ_le_zero 1)
  | .record [], fuel + 1, ts, _ => rfl
  | .record ((name, t) :: rest), fuel, ts, h => by
    obtain ⟨tail, hmembers⟩ := ofMembers_head name t rest
    simp only [Token.ofTree, List.length_append, List.length_singleton] at h
    obtain ⟨fuel, rfl⟩ : ∃ n, fuel = n + 1 := ⟨fuel - 1, by omega⟩
    have hparse := parseMembers_ofMembers ((name, t) :: rest) fuel ts (List.cons_ne_nil _ rest)
      (by omega)
    rw [hmembers, List.cons_append] at hparse
    simp only [Token.ofTree, hmembers, List.append_assoc, List.cons_append, List.nil_append]
    rw [parse_openBrace, hparse, Node.ofTree]

theorem parseItems_ofItems : ∀ (items : List Tree) (fuel : Nat) (ts : List Token), items ≠ [] →
    ([Token.comma].intercalate (Token.ofItems items)).length + 1 ≤ fuel →
    Node.parseItems fuel ([Token.comma].intercalate (Token.ofItems items) ++ .closeBracket :: ts) =
      (Node.ofItems items, true, ts)
  | [], _, _, h, _ => absurd rfl h
  | _, 0, _, _, h => absurd h (Nat.not_succ_le_zero _)
  | [t], fuel + 1, ts, _, h => by
    have ht : (Token.ofTree t).length ≤ fuel := by simpa [Token.ofItems] using h
    have hparse := parse_ofTree t fuel (.closeBracket :: ts) ht
    simp [Token.ofItems, Node.ofItems, Node.parseItems, hparse]
  | t :: u :: rest, fuel + 1, ts, _, h => by
    rw [intercalate_ofItems, List.length_append, List.length_cons] at h
    have hparse := parse_ofTree t fuel
      (.comma :: ([Token.comma].intercalate (Token.ofItems (u :: rest)) ++ .closeBracket :: ts))
      (by omega)
    have hrest := parseItems_ofItems (u :: rest) fuel ts (List.cons_ne_nil u rest) (by omega)
    rw [intercalate_ofItems, List.append_assoc, List.cons_append, Node.parseItems, hparse]
    simp only [hrest, Node.ofItems]

theorem parseMembers_ofMembers : ∀ (members : List (String × Tree)) (fuel : Nat) (ts : List Token),
    members ≠ [] → ([Token.comma].intercalate (Token.ofMembers members)).length + 1 ≤ fuel →
    Node.parseMembers fuel
        ([Token.comma].intercalate (Token.ofMembers members) ++ .closeBrace :: ts) =
      (Node.ofMembers members, true, ts)
  | [], _, _, h, _ => absurd rfl h
  | _, 0, _, _, h => absurd h (Nat.not_succ_le_zero _)
  | [(name, t)], fuel + 1, ts, _, h => by
    have ht : (Token.ofTree t).length ≤ fuel := by
      simp [Token.ofMembers] at h
      omega
    have hparse := parse_ofTree t fuel (.closeBrace :: ts) ht
    simp [Token.ofMembers, Node.ofMembers, Node.parseMembers, hparse]
  | (name, t) :: u :: rest, fuel + 1, ts, _, h => by
    rw [intercalate_ofMembers, List.length_cons, List.length_cons, List.length_append,
      List.length_cons] at h
    have hparse := parse_ofTree t fuel
      (.comma :: ([Token.comma].intercalate (Token.ofMembers (u :: rest)) ++ .closeBrace :: ts))
      (by omega)
    have hrest := parseMembers_ofMembers (u :: rest) fuel ts (List.cons_ne_nil u rest) (by omega)
    rw [intercalate_ofMembers, List.cons_append, List.cons_append, List.append_assoc,
      List.cons_append, Node.parseMembers, hparse]
    simp only [hrest, Node.ofMembers]

end

end Parsing

/-- A text of a tree is a document that holds the tree and nothing else. -/
theorem Writes.ofText {s : String} {t : Tree} (h : Writes s (Token.ofTree t)) :
    Parsed.ofText s = ⟨Node.ofTree t, true⟩ := by
  have hparse := parse_ofTree t (2 * (Token.ofTree t).length) [] (by omega)
  rw [List.append_nil] at hparse
  simp [Parsed.ofText, h.scan, hparse]

end ResolverPipeline.Json
