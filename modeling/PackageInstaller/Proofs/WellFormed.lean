import PackageInstaller.Proofs.Brackets

/-! Comments and string literals built from a grammar, nested to any depth. The scanner passes each of them
whole, whatever stands before and after. -/

namespace PackageInstaller.Manifest

def lineComment (w : Text) : Text := '/' :: '/' :: w

def blockComment (m : Text) : Text := '/' :: '*' :: (m ++ ['*', '/'])

def stringLiteral (hashes : Nat) (multiline : Bool) (b : Text) : Text :=
  List.replicate hashes '#' ++ List.replicate (quoteCount multiline) '"' ++ (b ++ closingMark hashes multiline)

/-- Characters of interpolated code that belong to no bracket group and to no literal. -/
def CodeChar (c : Char) : Prop := Inner c ∧ Plain c

instance (c : Char) : Decidable (CodeChar c) := inferInstanceAs (Decidable (_ ∧ _))

/-- What can stand inside of a literal: between the marks of a block comment, between the quotes of a string,
or between the parentheses of an interpolation. Of such code the grammar also keeps whether it begins with a
string, so that no string can follow another one at once. -/
inductive Phrase where
  | comment
  | string (hashes : Nat) (multiline : Bool)
  | code (beginsWithString : Bool)

inductive Phrase.Derives : Phrase → Text → Prop
  | commentEnd : Derives .comment []
  | commentChar {c : Char} {m : Text} : c ≠ '/' → c ≠ '*' → Derives .comment m → Derives .comment (c :: m)
  | nestedComment {m r : Text} : Derives .comment m → Derives .comment r →
    Derives .comment (blockComment m ++ r)
  | stringEnd {n : Nat} {multiline : Bool} : Derives (.string n multiline) []
  | stringChar {n : Nat} {multiline : Bool} {c : Char} {b : Text} : c ≠ '"' → c ≠ '\\' →
    (c = '\n' → multiline = true) → Derives (.string n multiline) b → Derives (.string n multiline) (c :: b)
  | escape {n : Nat} {multiline : Bool} {c : Char} {b : Text} : c ≠ '(' → Derives (.string n multiline) b →
    Derives (.string n multiline) (escapeMark n ++ c :: b)
  | interpolation {n : Nat} {multiline q : Bool} {d b : Text} : Derives (.code q) d →
    Derives (.string n multiline) b → Derives (.string n multiline) (escapeMark n ++ '(' :: (d ++ ')' :: b))
  | codeEnd : Derives (.code false) []
  | codeChar {q : Bool} {c : Char} {d : Text} : CodeChar c → Derives (.code q) d → Derives (.code false) (c :: d)
  | group {q q' : Bool} {o k : Char} {b d : Text} : closerOf? o = some k → Derives (.code q) b →
    Derives (.code q') d → Derives (.code false) (o :: (b ++ k :: d))
  | codeLineComment {q : Bool} {w d : Text} : '\n' ∉ w → Derives (.code q) d →
    Derives (.code false) (lineComment w ++ '\n' :: d)
  | codeBlockComment {q : Bool} {m d : Text} : Derives .comment m → Derives (.code q) d →
    Derives (.code false) (blockComment m ++ d)
  | codeString {n : Nat} {multiline : Bool} {b d : Text} : Derives (.string n multiline) b →
    Derives (.code false) d → Derives (.code true) (stringLiteral n multiline b ++ d)

/-- The literals of the grammar. -/
inductive WellFormed : Text → Prop
  | lineComment {w : Text} : '\n' ∉ w → WellFormed (lineComment w)
  | blockComment {m : Text} : Phrase.comment.Derives m → WellFormed (blockComment m)
  | string {n : Nat} {multiline : Bool} {b : Text} : (Phrase.string n multiline).Derives b →
    WellFormed (stringLiteral n multiline b)

section Steps

variable (pos start n : Nat) (multiline : Bool) (below : List Frame) (t : Text)

lemma stringStep_char {c : Char} (h₁ : c ≠ '"') (h₂ : c ≠ '\\') (h₃ : c = '\n' → multiline = true) :
    stringStep pos start n multiline below (c :: t) = .ok ⟨0, .string start n multiline :: below⟩ := by
  have hescape : (escapeMark n).isPrefixOf (c :: t) = false := by
    simp [escapeMark, List.isPrefixOf, h₂.symm]
  have hclose : (closingMark n multiline).isPrefixOf (c :: t) = false := by
    cases multiline <;> simp [closingMark, quoteCount, List.replicate_succ, List.isPrefixOf, h₁.symm]
  have hline : ¬((c :: t).head? = some '\n' ∧ multiline = false) := by
    rintro ⟨hc, hm⟩
    rw [h₃ (by simpa using hc)] at hm
    cases hm
  simp only [stringStep, hescape, hclose, if_neg hline, Bool.false_eq_true, if_false]

lemma stringStep_closingMark : stringStep pos start n multiline below (closingMark n multiline ++ t) =
    .ok ⟨quoteCount multiline + n - 1, below⟩ := by
  have hescape : (escapeMark n).isPrefixOf (closingMark n multiline ++ t) = false := by
    cases multiline <;> simp [escapeMark, closingMark, quoteCount, List.replicate_succ, List.isPrefixOf]
  have hclose : (closingMark n multiline).isPrefixOf (closingMark n multiline ++ t) = true :=
    List.isPrefixOf_iff_prefix.mpr (List.prefix_append _ _)
  simp only [stringStep, hescape, hclose, Bool.false_eq_true, if_false, if_true]

variable {t} in
lemma stringStep_escape (h : (escapeMark n).isPrefixOf t = true) : stringStep pos start n multiline below t =
    .ok ⟨n + 1, if t[n + 1]? = some '(' then .group (pos + n + 1) '(' [')'] :: .string start n multiline :: below
      else .string start n multiline :: below⟩ := by
  rw [stringStep, if_pos h, ← List.head?_drop]
  split
  · rename_i ht
    rw [ht]
    rfl
  · rename_i ht
    rw [if_neg fun hc => ?_]
    obtain ⟨r, hr⟩ := List.head?_eq_some_iff.mp hc
    exact ht r hr

lemma stringStep_escapeMark (c : Char) : stringStep pos start n multiline below (escapeMark n ++ c :: t) =
    .ok ⟨n + 1, if c = '(' then .group (pos + n + 1) '(' [')'] :: .string start n multiline :: below
      else .string start n multiline :: below⟩ := by
  have hnext : (escapeMark n ++ c :: t)[n + 1]? = some c := by
    rw [← escapeMark_length n, ← List.head?_drop, List.drop_left, List.head?_cons]
  rw [stringStep_escape pos start n multiline below (List.isPrefixOf_iff_prefix.mpr (List.prefix_append _ _)), hnext]
  simp only [Option.some.injEq]

end Steps

variable {n : Nat} {multiline : Bool} {b d m z : Text}

lemma blockCommentLength?_char {c : Char} (h₁ : c ≠ '/') (h₂ : c ≠ '*') (depth : Nat) (t : Text) :
    blockCommentLength? depth (c :: t) = (blockCommentLength? depth t).map (· + 1) := by
  cases t with
  | nil => simp [blockCommentLength?]
  | cons d t => rw [blockCommentLength?_cons_cons, if_neg fun h => h₁ h.1, if_neg fun h => h₂ h.1]

lemma opening?_hashes (n : Nat) (t : Text) : opening? (List.replicate n '#' ++ '"' :: t) =
    some (.string n (['"', '"'].isPrefixOf t)) := by
  have hrun : hashRun (List.replicate n '#' ++ '"' :: t) = n := by
    rw [hashRun_append_full _ (by rw [hashRun_replicate, List.length_replicate]), List.length_replicate]
    rfl
  have hopen : opening? (List.replicate n '#' ++ '"' :: t) =
      stringOpening? (hashRun (List.replicate n '#' ++ '"' :: t))
        ((List.replicate n '#' ++ '"' :: t).drop (hashRun (List.replicate n '#' ++ '"' :: t))) := by
    cases n with
    | zero => exact opening?_of_ne _ (by decide)
    | succ n => exact opening?_of_ne _ (by decide)
  have hdrop : (List.replicate n '#' ++ '"' :: t).drop n = '"' :: t := List.drop_left' List.length_replicate
  rw [hopen, hrun, hdrop, stringOpening?_eq, List.head?_cons, if_pos rfl]
  rfl

lemma opening?_stringLiteral (hb : b.head? ≠ some '"')
    (hz : stringLiteral n multiline b = ['"', '"'] → z.head? ≠ some '"') :
    opening? (stringLiteral n multiline b ++ z) = some (.string n multiline) := by
  cases multiline with
  | true =>
    have htext : stringLiteral n true b ++ z =
        List.replicate n '#' ++ '"' :: '"' :: '"' :: (b ++ closingMark n true ++ z) := by
      simp [stringLiteral, quoteCount, List.replicate_succ]
    rw [htext, opening?_hashes]
    rfl
  | false =>
    have htext : stringLiteral n false b ++ z = List.replicate n '#' ++ '"' :: (b ++ closingMark n false ++ z) := by
      simp [stringLiteral, quoteCount]
    have hmark : closingMark n false = '"' :: List.replicate n '#' := rfl
    rw [htext, opening?_hashes, hmark]
    congr 2
    cases b with
    | cons c b =>
      have hc : c ≠ '"' := by simpa using hb
      simp [List.isPrefixOf, hc.symm]
    | nil =>
      cases n with
      | succ n => simp [List.isPrefixOf, List.replicate_succ]
      | zero =>
        have hz := hz rfl
        cases z with
        | nil => simp [List.isPrefixOf]
        | cons c z =>
          have hc : c ≠ '"' := by simpa using hz
          simp [List.isPrefixOf, hc.symm]

/-- How the scanner reads what the grammar derives: a comment leaves the depth as it is, a string is read up to
the quotes that close it, and code is made up of pieces that bracket evenly. -/
def Phrase.Scanned : Phrase → Text → Prop
  | .comment, m => ∀ depth z, blockCommentLength? (depth + 1) (m ++ z) =
      (blockCommentLength? (depth + 1) z).map (m.length + ·)
  | .string n multiline, b => b.head? ≠ some '"' ∧ ∀ pos start z,
      run 0 pos [.string start n multiline] (b ++ (closingMark n multiline ++ z)) =
        .ok (pos + b.length + (closingMark n multiline).length)
  | .code q, d => (q = false → d.head? ≠ some '"') ∧ ∃ ps, textOf ps = d ∧ Balanced ps ∧
      ∀ k z, isCloser k = true → LexedBefore (k :: z) ps

lemma blockCommentLength?_blockComment (hm : Phrase.comment.Scanned m) (depth : Nat) (z : Text) :
    blockCommentLength? (depth + 1) (blockComment m ++ z) =
      (blockCommentLength? (depth + 1) z).map ((blockComment m).length + ·) := by
  have htext : blockComment m ++ z = '/' :: '*' :: (m ++ '*' :: '/' :: z) := by simp [blockComment]
  have hlen : (blockComment m).length = m.length + 4 := by simp [blockComment]
  rw [htext, hlen, blockCommentLength?_cons_cons, if_pos ⟨rfl, rfl⟩, hm, blockCommentLength?_cons_cons,
    if_neg (by decide), if_pos ⟨rfl, rfl⟩, if_neg (by omega), Nat.add_sub_cancel, Option.map_map,
    Option.map_map]
  congr 1
  funext j
  simp only [Function.comp_apply]
  omega

lemma literalLength?_blockComment (hm : Phrase.comment.Scanned m) (z : Text) :
    literalLength? (blockComment m ++ z) = .ok (some (blockComment m).length) := by
  have htext : blockComment m ++ z = '/' :: '*' :: (m ++ '*' :: '/' :: z) := by simp [blockComment]
  have hlen : (blockComment m).length = m.length + 4 := by simp [blockComment]
  have hcount : blockCommentLength? 0 (blockComment m ++ z) = some (blockComment m).length := by
    rw [htext, hlen, blockCommentLength?_cons_cons, if_pos ⟨rfl, rfl⟩, hm, blockCommentLength?_cons_cons,
      if_neg (by decide), if_pos ⟨rfl, rfl⟩, if_pos (by omega)]
    rfl
  have hopen : opening? (blockComment m ++ z) = some .blockComment := by
    rw [htext, opening?_slash, if_neg (by decide), if_pos rfl]
  rw [literalLength?, hopen]
  simp only [hcount]

lemma literalLength?_lineComment {w : Text} (hw : '\n' ∉ w) (hz : z = [] ∨ z.head? = some '\n') :
    literalLength? (lineComment w ++ z) = .ok (some (lineComment w).length) := by
  have hopen : opening? (lineComment w ++ z) = some .lineComment := by
    rw [lineComment, List.cons_append, List.cons_append, opening?_slash, if_pos rfl]
  rw [literalLength?, hopen]
  simp only
  rw [lineCommentLength_of_notMem (by simpa [lineComment] using hw) hz]

lemma literalLength?_stringLiteral (hb : (Phrase.string n multiline).Scanned b)
    (hz : stringLiteral n multiline b = ['"', '"'] → z.head? ≠ some '"') :
    literalLength? (stringLiteral n multiline b ++ z) = .ok (some (stringLiteral n multiline b).length) := by
  have hstart : (List.replicate n '#' ++ List.replicate (quoteCount multiline) '"').length =
      n + quoteCount multiline := by simp
  have htext : stringLiteral n multiline b ++ z =
      (List.replicate n '#' ++ List.replicate (quoteCount multiline) '"') ++
        (b ++ (closingMark n multiline ++ z)) := by simp [stringLiteral]
  have hlen : (stringLiteral n multiline b).length =
      n + quoteCount multiline + b.length + (closingMark n multiline).length := by
    simp only [stringLiteral, List.length_append, List.length_replicate]
    omega
  rw [literalLength?_string (opening?_stringLiteral hb.1 hz), htext, ← hstart, run_skip, hb.2, hlen, hstart,
    Nat.zero_add]

lemma run_string {pos start : Nat} {below : List Frame} {c : Char} {t : Text} {move : Move}
    (h : stringStep pos start n multiline below (c :: t) = .ok move) :
    run 0 pos (.string start n multiline :: below) (c :: t) = run move.extra (pos + 1) move.stack t :=
  @run_step pos (.string start n multiline) below c t move h

lemma run_onward {pos start extra : Nat} {frame : Frame} {below : List Frame} {t : Text} (ht : t ≠ [])
    (h : stringStep pos start n multiline [] t = .ok ⟨extra, frame :: below⟩) :
    run 0 pos [.string start n multiline] t = run 0 (pos + (extra + 1)) (frame :: below) (t.drop (extra + 1)) := by
  cases t with
  | nil => exact absurd rfl ht
  | cons c t =>
    rw [run_string h]
    simp only
    rw [run_drop, List.drop_succ_cons, Nat.add_right_comm, Nat.add_assoc]

lemma escapeMark_drop (n : Nat) (c : Char) (t : Text) : (escapeMark n ++ c :: t).drop (n + 2) = t := by
  rw [List.append_cons, List.drop_left' (by rw [List.length_append, escapeMark_length]; rfl)]

lemma run_closingMark (n : Nat) (multiline : Bool) (pos start : Nat) (z : Text) :
    run 0 pos [.string start n multiline] (closingMark n multiline ++ z) =
      .ok (pos + (closingMark n multiline).length) := by
  have hpos := quoteCount_pos multiline
  obtain ⟨c, r, hmark⟩ := List.exists_cons_of_length_pos (l := closingMark n multiline) (by
    rw [closingMark_length]
    omega)
  have hlen := closingMark_length n multiline
  have hstep := stringStep_closingMark pos start n multiline [] z
  rw [hmark, List.length_cons] at hlen
  rw [hmark, List.cons_append] at hstep ⊢
  rw [run_string hstep, show quoteCount multiline + n - 1 = r.length by omega]
  simp only
  rw [run_nil (by simp), List.length_cons]
  congr 1
  omega

lemma run_escape {c : Char} (hc : c ≠ '(') (pos start : Nat) (t : Text) :
    run 0 pos [.string start n multiline] (escapeMark n ++ c :: t) =
      run 0 (pos + (n + 2)) [.string start n multiline] t := by
  have hstep := stringStep_escapeMark pos start n multiline [] t c
  rw [if_neg hc] at hstep
  rw [run_onward (by simp) hstep, escapeMark_drop]

lemma run_interpolation {ps : List Piece} (hps : Balanced ps) (hl : LexedBefore (')' :: z) ps) (pos start : Nat) :
    run 0 pos [.string start n multiline] (escapeMark n ++ '(' :: (textOf ps ++ ')' :: z)) =
      run 0 (pos + (n + (textOf ps).length + 3)) [.string start n multiline] z := by
  have hgroup : run 0 (pos + (n + 1 + 1)) [.group (pos + n + 1) '(' [')']] (textOf ps ++ ')' :: z) =
      .ok (pos + n + 1 + ((textOf ps).length + 2)) := by
    have hmoved := run_moved (pos + n + 1) 0 1 [.group 0 '(' [')']] (textOf ps ++ ')' :: z)
    have hlen := groupLength_group (o := '(') rfl hps hl
    rw [groupLength] at hlen
    simp only [closerOf?] at hlen
    rw [hlen] at hmoved
    exact hmoved
  have hstep := stringStep_escapeMark pos start n multiline [] (textOf ps ++ ')' :: z) '('
  rw [if_pos rfl] at hstep
  have hpast : pos + n + 1 + ((textOf ps).length + 2) - (pos + (n + 1 + 1)) = (textOf ps ++ [')']).length := by
    simp
    omega
  rw [run_onward (by simp) hstep, escapeMark_drop,
    show [Frame.group (pos + n + 1) '(' [')'], .string start n multiline] =
      [.group (pos + n + 1) '(' [')']] ++ [.string start n multiline] from rfl,
    run_below [.string start n multiline] hgroup (.inr (by simp)), hpast, List.append_cons (textOf ps) ')' z,
    List.drop_left]
  congr 1
  omega

lemma isCloser_ne_quote {k : Char} (hk : isCloser k = true) : k ≠ '"' := by
  rcases isCloser_cases hk with rfl | rfl | rfl <;> decide

theorem Phrase.Derives.scanned {phrase : Phrase} {t : Text} (h : phrase.Derives t) : phrase.Scanned t := by
  induction h with
  | commentEnd => exact fun depth z => by simp
  | commentChar h₁ h₂ _ ih =>
    intro depth z
    rw [List.cons_append, blockCommentLength?_char h₁ h₂, ih, Option.map_map]
    congr 1
    funext j
    simp only [Function.comp_apply, List.length_cons]
    omega
  | nestedComment _ _ ihm ihr =>
    intro depth z
    rw [List.append_assoc, blockCommentLength?_blockComment ihm, ihr, Option.map_map, List.length_append]
    congr 1
    funext j
    simp only [Function.comp_apply]
    omega
  | @stringEnd n multiline => exact ⟨by simp, fun pos start z => run_closingMark n multiline pos start z⟩
  | @stringChar n multiline c b h₁ h₂ h₃ _ ih =>
    refine ⟨by simpa using h₁, fun pos start z => ?_⟩
    have hstep := stringStep_char pos start n multiline [] (b ++ (closingMark n multiline ++ z)) h₁ h₂ h₃
    rw [List.cons_append, run_string hstep, ih.2, List.length_cons]
    congr 2
    omega
  | @escape n multiline c b hc _ ih =>
    refine ⟨by simp [escapeMark], fun pos start z => ?_⟩
    rw [List.append_assoc, List.cons_append, run_escape hc, ih.2, List.length_append, escapeMark_length,
      List.length_cons]
    congr 2
    omega
  | @interpolation n multiline q d b _ _ ihd ihb =>
    obtain ⟨-, ps, rfl, hps, hl⟩ := ihd
    refine ⟨by simp [escapeMark], fun pos start z => ?_⟩
    have htext : escapeMark n ++ '(' :: (textOf ps ++ ')' :: b) ++ (closingMark n multiline ++ z) =
        escapeMark n ++ '(' :: (textOf ps ++ ')' :: (b ++ (closingMark n multiline ++ z))) := by simp
    rw [htext, run_interpolation hps (hl ')' _ (by decide)), ihb.2]
    simp only [List.length_append, List.length_cons, escapeMark_length]
    congr 2
    omega
  | codeEnd => exact ⟨fun _ => by simp, [], rfl, .nil, fun _ _ _ => trivial⟩
  | @codeChar q c d hc _ ih =>
    obtain ⟨-, ps, rfl, hps, hl⟩ := ih
    exact ⟨fun _ => by simpa using hc.2.2.1, .char c :: ps, rfl, hps.cons_char hc.1,
      fun k z hk => ⟨literalLength?_of_plain _ hc.2, hl k z hk⟩⟩
  | @group q q' o k b d ho _ _ ihb ihd =>
    obtain ⟨-, bs, rfl, hbs, hlb⟩ := ihb
    obtain ⟨-, ds, rfl, hds, hld⟩ := ihd
    have hclose := (isCloser_of_closerOf? ho).2.2
    have hplain : Plain o ∧ Plain k := plain_of_closerOf? ho
    refine ⟨fun _ => by simpa using hplain.1.2.1, .char o :: (bs ++ [.char k]) ++ ds, by simp [Piece.text],
      (hbs.group ho).append hds, fun k' z hk' => ?_⟩
    rw [List.cons_append, List.append_assoc]
    exact ⟨literalLength?_of_plain _ hplain.1, lexedBefore_append.mpr ⟨hlb k _ hclose,
      literalLength?_of_plain _ hplain.2, hld k' z hk'⟩⟩
  | @codeLineComment q w d hw _ ih =>
    obtain ⟨-, ps, rfl, hps, hl⟩ := ih
    refine ⟨fun _ => by simp [lineComment], .literal (lineComment w) :: .char '\n' :: ps, by simp [Piece.text],
      hps, fun k z hk => ⟨literalLength?_lineComment hw (.inr rfl), literalLength?_of_plain _ (by decide), hl k z hk⟩⟩
  | @codeBlockComment q m d _ _ ihm ihd =>
    obtain ⟨-, ps, rfl, hps, hl⟩ := ihd
    exact ⟨fun _ => by simp [blockComment], .literal (blockComment m) :: ps, rfl, hps,
      fun k z hk => ⟨literalLength?_blockComment ihm _, hl k z hk⟩⟩
  | @codeString n multiline b d _ _ ihb ihd =>
    obtain ⟨hd, ps, rfl, hps, hl⟩ := ihd
    refine ⟨by simp, .literal (stringLiteral n multiline b) :: ps, rfl, hps, fun k z hk =>
      ⟨literalLength?_stringLiteral ihb fun _ => ?_, hl k z hk⟩⟩
    -- what follows the string in its code does not begin with a quote
    cases hps' : textOf ps with
    | nil => simpa using isCloser_ne_quote hk
    | cons c r =>
      rw [hps'] at hd
      exact hd rfl

/-- A literal of the grammar is passed whole, whatever stands before it and after it, if a line comment ends
with its line and no quote follows the empty string. -/
theorem skipLiteral?_wellFormed {l : Text} (h : WellFormed l) (p s : Text)
    (hline : ['/', '/'].isPrefixOf l = true → s = [] ∨ s.head? = some '\n')
    (hempty : l = ['"', '"'] → s.head? ≠ some '"') :
    skipLiteral? (p ++ l ++ s) p.length = .ok (some (p ++ l).length) := by
  have hl : literalLength? (l ++ s) = .ok (some l.length) := by
    cases h with
    | lineComment hw => exact literalLength?_lineComment hw (hline rfl)
    | blockComment hm => exact literalLength?_blockComment hm.scanned s
    | string hb => exact literalLength?_stringLiteral hb.scanned hempty
  rw [skipLiteral?, List.append_assoc, List.drop_left, hl, List.length_append]
  rfl

/-- A string with an escape and an interpolation, in which a raw string interpolates another string and a comment
holds a parenthesis. -/
def nestedLiteral : Text := "\"a\\([#\"\\#(\"c\")\"#]/*)*/)\\n\"".toList

lemma nestedLiteral_wellFormed : WellFormed nestedLiteral := by
  have hinner : (Phrase.string 0 false).Derives ['c'] :=
    .stringChar (by decide) (by decide) (by decide) .stringEnd
  have hraw : (Phrase.string 1 false).Derives
      (escapeMark 1 ++ '(' :: (stringLiteral 0 false ['c'] ++ [] ++ ')' :: [])) :=
    .interpolation (.codeString hinner .codeEnd) .stringEnd
  have hcomment : Phrase.comment.Derives [')'] := .commentChar (by decide) (by decide) .commentEnd
  have hcode := Phrase.Derives.group (o := '[') rfl (.codeString hraw .codeEnd)
    (.codeBlockComment hcomment .codeEnd)
  have hbody : (Phrase.string 0 false).Derives _ := .stringChar (c := 'a') (by decide) (by decide) (by decide)
    (.interpolation hcode (.escape (c := 'n') (by decide) .stringEnd))
  exact .string hbody

theorem skipLiteral?_nestedLiteral : WellFormed nestedLiteral ∧
    (['/', '/'].isPrefixOf nestedLiteral = true → "\"z".toList = [] ∨ "\"z".toList.head? = some '\n') ∧
      (nestedLiteral = ['"', '"'] → "\"z".toList.head? ≠ some '"') ∧
        skipLiteral? ("x = ".toList ++ nestedLiteral ++ "\"z".toList) 4 = .ok (some 30) := by
  refine ⟨nestedLiteral_wellFormed, by decide, by decide, ?_⟩
  exact skipLiteral?_wellFormed nestedLiteral_wellFormed "x = ".toList "\"z".toList (by decide) (by decide)

end PackageInstaller.Manifest
