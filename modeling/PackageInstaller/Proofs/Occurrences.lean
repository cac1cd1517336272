import PackageInstaller.Proofs.Descent

/-! The calls that an anchor finds in a text: each place outside of the comments and string literals where its pattern
matches, and no other place. -/

namespace PackageInstaller.Manifest

/-- The scan of the text takes a comment or string literal in which the offset lies. -/
def InLiteral (t : Text) (i : Nat) : Prop :=
  ∃ s e, Reaches t 0 s ∧ skipLiteral? t s = .ok (some e) ∧ s ≤ i ∧ i < e

/-- The pattern of an anchor matches somewhere in the text, wherever else it does. -/
inductive Anchor.Matches (t : Text) : Anchor → Occurrence → Prop
  | packageCall {a blanks r : Text} : t = a ++ (packageWord ++ (blanks ++ '(' :: r)) →
    (∀ c, a.getLast? = some c → Text.isWord c = false) → (∀ c ∈ blanks, Text.isBlank c = true) →
    Matches t .packageCall ⟨⟨a.length, a.length + (packageWord.length + blanks.length + 1)⟩, none⟩
  | targetDeclaration {a blanks r : Text} (kind : TargetKind) :
    t = a ++ '.' :: (kind.word ++ (blanks ++ '(' :: r)) → (∀ c ∈ blanks, Text.isBlank c = true) →
    Matches t .targetDeclaration
      ⟨⟨a.length, a.length + (kind.word.length + blanks.length + 2)⟩, some kind.word⟩

variable {t : Text} {i pos : Nat} {before : Option Char} {ps : List Piece} {index : LiteralIndex} {anchor : Anchor}
  {initial : Char} {o o' : Occurrence}

lemma Lexed.between (h : Lexed ps) : Between (textOf ps) 0 (textOf ps).length ps := by
  refine ⟨?_, (Nat.zero_add _).symm, ?_⟩
  · rw [List.drop_zero, List.drop_length, List.append_nil]
  · rw [List.drop_length]
    exact lexed_iff.mp h

lemma inLiteral_textOf (h : Lexed ps) : InLiteral (textOf ps) i ↔
    ∃ a l b, ps = a ++ .literal l :: b ∧ (textOf a).length ≤ i ∧ i < (textOf a).length + l.length := by
  constructor
  · rintro ⟨s, e, hr, hs, hle, hlt⟩
    obtain ⟨a, ha⟩ := reaches_iff.mp hr
    obtain ⟨l, hl⟩ := Between.literal hs
    have hstart : s = (textOf a).length := by simpa using ha.stop
    have hstop : e = s + l.length := by simpa [Piece.text] using hl.stop
    have hin : ∃ b, ps = a ++ [.literal l] ++ b := by
      rcases h.between.cut (ha.append hl) with ⟨b, hb, -⟩ | ⟨b, hb, hend⟩
      · exact ⟨b, hb⟩
      · -- behind the end of the text there are no pieces
        have hnil : textOf b = [] := by
          have htext := hend.text
          rw [List.drop_length] at htext
          exact (List.append_eq_nil_iff.mp htext.symm).1
        have : b = [] := by
          by_contra hne
          exact hend.lexed.textOf_ne_nil hne hnil
        exact ⟨[], by rw [hb, this, List.append_nil, List.append_nil]⟩
    obtain ⟨b, rfl⟩ := hin
    exact ⟨a, l, b, by simp, by omega, by omega⟩
  · rintro ⟨a, l, b, rfl, hle, hlt⟩
    obtain ⟨s, ha, hrest⟩ := h.between.split
    obtain ⟨e, hl, -⟩ := hrest.split_cons
    have hstart : s = (textOf a).length := by simpa using ha.stop
    have hstop : e = s + l.length := by simpa [Piece.text] using hl.stop
    exact ⟨s, e, reaches_iff.mpr ⟨a, ha⟩, hl.skip_literal, by omega, by omega⟩

lemma holds_iff_inLiteral (hi : LiteralIndex.ofText t = .ok index) : index.holds i = true ↔ InLiteral t i := by
  obtain ⟨spans, hspans, -⟩ := map_eq_ok.mp hi
  obtain ⟨ps, hl, rfl⟩ := exists_lexed hspans
  obtain rfl := Except.ok.inj ((ofText_textOf hl).symm.trans hi)
  rw [holds_iff (literalSpans_ordered 0 hl), inLiteral_textOf hl]
  constructor
  · rintro ⟨span, hs, hle, hlt⟩
    obtain ⟨a, l, b, rfl, rfl⟩ := mem_literalSpans.mp hs
    simp only [Nat.zero_add] at hle hlt
    exact ⟨a, l, b, rfl, by omega, by omega⟩
  · rintro ⟨a, l, b, rfl, hle, hlt⟩
    refine ⟨_, mem_literalSpans.mpr ⟨a, l, b, rfl, rfl⟩, ?_, ?_⟩
    · simp only [Nat.zero_add]
      omega
    · simp only [Nat.zero_add]
      omega

lemma mem_occurrencesFrom (h : anchor.Calls initial) : o ∈ anchor.occurrencesFrom 0 pos before t ↔
    ∃ a r n capture, t = a ++ r ∧ anchor.matchHead? (a.getLast?.or before) r = some (n, capture) ∧
      o = ⟨⟨pos + a.length, pos + a.length + n⟩, capture⟩ := by
  induction t generalizing pos before with
  | nil =>
    constructor
    · simp [Anchor.occurrencesFrom]
    · rintro ⟨a, r, n, capture, ht, hm, -⟩
      obtain ⟨w, r', rfl, -, -⟩ := h.shape hm
      simp at ht
  | cons c t ih =>
    have hpos : ∀ a : Text, pos + (c :: a).length = pos + 1 + a.length := by
      intro a
      rw [List.length_cons]
      omega
    rw [occurrencesFrom_cons h, List.mem_append, ih]
    constructor
    · rintro (hmem | ⟨a, r, n, capture, rfl, hm, rfl⟩)
      · obtain ⟨⟨n, capture⟩, hm, rfl⟩ := Option.map_eq_some_iff.mp (Option.mem_toList.mp hmem)
        exact ⟨[], c :: t, n, capture, rfl, hm, rfl⟩
      · exact ⟨c :: a, r, n, capture, rfl, getLast?_or c a before ▸ hm, by rw [hpos]⟩
    · rintro ⟨a, r, n, capture, ht, hm, rfl⟩
      cases a with
      | nil =>
        rw [List.nil_append] at ht
        subst ht
        exact .inl (Option.mem_toList.mpr (Option.map_eq_some_iff.mpr ⟨(n, capture), hm, rfl⟩))
      | cons d a =>
        obtain ⟨rfl, rfl⟩ := List.cons.inj ht
        exact .inr ⟨a, r, n, capture, rfl, (getLast?_or c a before).symm ▸ hm, by rw [hpos]⟩

lemma occurrencesFrom_ascending (h : anchor.Calls initial) :
    (anchor.occurrencesFrom 0 pos before t).Pairwise fun a b => a.span.start < b.span.start := by
  induction t generalizing pos before with
  | nil => exact .nil
  | cons c t ih =>
    rw [occurrencesFrom_cons h]
    cases anchor.matchHead? before (c :: t) with
    | none => exact ih
    | some m =>
      refine List.Pairwise.cons (fun o ho => ?_) ih
      obtain ⟨a, r, n, capture, -, -, rfl⟩ := (mem_occurrencesFrom h).mp ho
      simp only
      omega

lemma mem_occurrences (h : anchor.Calls initial) : o ∈ anchor.occurrences t 0 t.length ↔
    ∃ a r n capture, t = a ++ r ∧ anchor.matchHead? a.getLast? r = some (n, capture) ∧
      o = ⟨⟨a.length, a.length + n⟩, capture⟩ := by
  have hslice : t.slice 0 t.length = t := by simp [Text.slice]
  rw [Anchor.occurrences, hslice, Anchor.charBefore?, mem_occurrencesFrom h]
  simp only [Option.or_none, Nat.zero_add]

lemma mem_occurrences_packageCall : o ∈ Anchor.packageCall.occurrences t 0 t.length ↔ Anchor.packageCall.Matches t o := by
  rw [mem_occurrences packageCall_calls]
  constructor
  · rintro ⟨a, r, n, capture, rfl, hm, rfl⟩
    simp only [Anchor.matchHead?] at hm
    split_ifs at hm with hword
    obtain ⟨m, hcall, he⟩ := Option.map_eq_some_iff.mp hm
    obtain ⟨rfl, rfl⟩ := Prod.mk.inj he
    obtain ⟨blanks, rest, rfl, hblank, rfl⟩ := callLength?_eq_some.mp hcall
    refine .packageCall (by rw [List.append_assoc]) (fun c hc => ?_) hblank
    rw [hc] at hword
    simpa using hword
  · intro h
    cases h with
    | @packageCall a blanks r ht hbefore hblank =>
      have hword : a.getLast?.any Text.isWord = false := by
        cases hlast : a.getLast? with
        | none => rfl
        | some c => exact hbefore c hlast
      have hcall := callLength?_eq_some.mpr ⟨blanks, r, (List.append_assoc packageWord _ _).symm, hblank, rfl⟩
      exact ⟨a, _, _, none, ht, by rw [Anchor.matchHead?, hword, hcall]; rfl, rfl⟩

lemma mem_occurrences_targetDeclaration :
    o ∈ Anchor.targetDeclaration.occurrences t 0 t.length ↔ Anchor.targetDeclaration.Matches t o := by
  rw [mem_occurrences targetDeclaration_calls]
  constructor
  · rintro ⟨a, r, n, capture, rfl, hm, rfl⟩
    obtain ⟨⟨m, kind⟩, hlen, he⟩ := Option.map_eq_some_iff.mp hm
    obtain ⟨rfl, rfl⟩ := Prod.mk.inj he
    obtain ⟨kind', -, hk⟩ := List.exists_of_findSome?_eq_some hlen
    obtain ⟨m', hcall, he⟩ := Option.map_eq_some_iff.mp hk
    obtain ⟨rfl, rfl⟩ := Prod.mk.inj he
    obtain ⟨blanks, rest, rfl, hblank, rfl⟩ := callLength?_eq_some.mp hcall
    have hlength : ('.' :: kind'.word).length + blanks.length + 1 = kind'.word.length + blanks.length + 2 := by
      rw [List.length_cons]
      omega
    rw [hlength]
    exact .targetDeclaration (r := rest) kind' (by simp) hblank
  · intro h
    cases h with
    | @targetDeclaration a blanks r kind ht hblank =>
      exact ⟨a, _, _, _, ht, by rw [Anchor.matchHead?, targetLength?_eq_some hblank]; rfl, rfl⟩

lemma matches_shape (h : anchor.Calls initial) (ho : o ∈ anchor.occurrences t 0 t.length) :
    ∃ w r, t.drop o.span.start = initial :: (w ++ '(' :: r) ∧ o.span.stop = o.span.start + (w.length + 2) ∧
      ∀ c ∈ w, Ordinary c ∧ c ≠ initial := by
  obtain ⟨a, r, n, capture, rfl, hm, rfl⟩ := (mem_occurrences h).mp ho
  obtain ⟨w, rest, rfl, rfl, hw⟩ := h.shape hm
  exact ⟨w, rest, by rw [List.drop_left]; rfl, rfl, hw⟩

lemma matches_char (h : anchor.Calls initial) (ho : o ∈ anchor.occurrences t 0 t.length)
    (hle : o.span.start ≤ i) (hlt : i < o.span.stop) :
    ∃ c, t[i]? = some c ∧ Plain c ∧ (o.span.start < i → c ≠ initial) ∧ (i = o.opener → c = '(') := by
  obtain ⟨w, r, hdrop, hstop, hw⟩ := matches_shape h ho
  obtain ⟨d, rfl⟩ := Nat.exists_eq_add_of_le hle
  have hget : t[o.span.start + d]? = (initial :: (w ++ '(' :: r))[d]? := by rw [← hdrop, List.getElem?_drop]
  have hopener : o.opener = o.span.start + (w.length + 1) := by
    rw [Occurrence.opener, hstop]
    omega
  rw [hget, hopener]
  cases d with
  | zero => exact ⟨initial, rfl, h.ordinary.1, fun hd => absurd hd (by omega), fun hd => absurd hd (by omega)⟩
  | succ d =>
    rw [List.getElem?_cons_succ]
    rcases Nat.lt_or_eq_of_le (by omega : d ≤ w.length) with hd | rfl
    · rw [List.getElem?_append_left hd, List.getElem?_eq_getElem hd]
      have hc := hw w[d] (List.getElem_mem hd)
      exact ⟨_, rfl, hc.1.1, fun _ => hc.2, fun he => absurd he (by omega)⟩
    · refine ⟨'(', by simp, by decide, fun _ he => ?_, fun _ => rfl⟩
      exact absurd (he ▸ h.ordinary) (by decide)

lemma not_inLiteral_of_matches (h : anchor.Calls initial) (ho : o ∈ anchor.occurrences t 0 t.length)
    (hstart : ¬InLiteral t o.span.start) (hle : o.span.start ≤ i) (hlt : i < o.span.stop) : ¬InLiteral t i := by
  rintro ⟨s, e, hr, hs, hsi, hie⟩
  rcases Nat.lt_or_ge s o.span.start with hbefore | hinside
  · exact hstart ⟨s, e, hr, hs, Nat.le_of_lt hbefore, by omega⟩
  · -- none of the characters of a match begins a comment or a string
    obtain ⟨c, hc, hplain, -, -⟩ := matches_char h ho hinside (by omega)
    rw [skipLiteral?_plain hc hplain] at hs
    simp at hs

lemma matches_apart (h : anchor.Calls initial) (ho : o ∈ anchor.occurrences t 0 t.length)
    (ho' : o' ∈ anchor.occurrences t 0 t.length) (hlt : o.span.start < o'.span.start) :
    o.span.stop ≤ o'.span.start := by
  by_contra hge
  obtain ⟨c, hc, -, hne, -⟩ := matches_char h ho (Nat.le_of_lt hlt) (Nat.lt_of_not_le hge)
  obtain ⟨w, r, hdrop, -, -⟩ := matches_shape h ho'
  have hinitial : t[o'.span.start]? = some initial := by
    rw [← List.head?_drop, hdrop]
    rfl
  exact hne hlt (Option.some.inj (hc.symm.trans hinitial))

lemma exists_initial (ha : anchor = .packageCall ∨ anchor = .targetDeclaration) : ∃ initial, anchor.Calls initial ∧
    ∀ t o, o ∈ anchor.occurrences t 0 t.length ↔ anchor.Matches t o := by
  rcases ha with rfl | rfl
  · exact ⟨'P', packageCall_calls, fun t o => mem_occurrences_packageCall⟩
  · exact ⟨'.', targetDeclaration_calls, fun t o => mem_occurrences_targetDeclaration⟩

/-- The search finds the matches that begin in code and no others, from left to right. Such a match lies in code as a
whole, its parenthesis included. No match is lost to one that begins before it, since the search passes over none, and
no two of them overlap. -/
theorem codeOccurrences_exact (ha : anchor = .packageCall ∨ anchor = .targetDeclaration)
    (hi : LiteralIndex.ofText t = .ok index) : ∃ found, anchor.codeOccurrences t 0 t.length = .ok found ∧
      (∀ o, o ∈ found ↔ anchor.Matches t o ∧ ¬InLiteral t o.span.start) ∧
      (found.Pairwise fun a b => a.span.start < b.span.start) ∧
      (∀ o ∈ found, t[o.opener]? = some '(' ∧ ¬InLiteral t o.opener ∧
        ∀ i, o.span.start ≤ i → i < o.span.stop → ¬InLiteral t i) ∧
      (∀ o, o ∈ anchor.occurrences t 0 t.length ↔ anchor.Matches t o) ∧
      ∀ o o', anchor.Matches t o → anchor.Matches t o' → o.span.start < o'.span.start →
        o.span.stop ≤ o'.span.start := by
  obtain ⟨initial, h, hmatches⟩ := exists_initial ha
  have hfound : ∀ o, o ∈ (anchor.occurrences t 0 t.length).filter (fun o => !index.holds o.span.start) ↔
      anchor.Matches t o ∧ ¬InLiteral t o.span.start := by
    intro o
    rw [List.mem_filter, hmatches, Bool.not_eq_true', ← Bool.not_eq_true, holds_iff_inLiteral hi]
  refine ⟨_, by rw [Anchor.codeOccurrences, hi]; rfl, hfound, ?_, ?_, hmatches t, ?_⟩
  · exact (occurrencesFrom_ascending h).filter _
  · intro o ho
    obtain ⟨hm, hcode⟩ := (hfound o).mp ho
    have hall := (hmatches t o).mpr hm
    obtain ⟨w, r, -, hstop, -⟩ := matches_shape h hall
    have hopener : o.opener + 1 = o.span.stop := by
      rw [Occurrence.opener, hstop]
      omega
    obtain ⟨c, hc, -, -, hparen⟩ := matches_char h hall (i := o.opener) (by omega) (by omega)
    refine ⟨by rw [hc, hparen rfl], ?_, fun i hle hlt => ?_⟩
    · exact not_inLiteral_of_matches h hall hcode (by omega) (by omega)
    · exact not_inLiteral_of_matches h hall hcode hle hlt
  · intro o o' ho ho' hlt
    exact matches_apart h ((hmatches t o).mpr ho) ((hmatches t o').mpr ho') hlt

/-- The word of a target at the end of a comment, with a parenthesis on the next line, before a target in the code. -/
def straddled : Text := "// .target\n(a) .target (b)".toList

theorem codeOccurrences_straddled : ∃ hidden found, Anchor.targetDeclaration.Matches straddled hidden ∧
    InLiteral straddled hidden.span.start ∧ ¬InLiteral straddled hidden.opener ∧
    Anchor.targetDeclaration.codeOccurrences straddled 0 straddled.length = .ok [found] ∧
    found.span = ⟨15, 24⟩ ∧ hidden.span.stop ≤ found.span.start ∧ straddled[found.opener]? = some '(' := by
  have hi : LiteralIndex.ofText straddled = .ok ⟨#[⟨0, 10⟩]⟩ := rfl
  have hfound : Anchor.targetDeclaration.codeOccurrences straddled 0 straddled.length =
      .ok [⟨⟨15, 24⟩, some TargetKind.target.word⟩] := by decide +kernel
  have hhidden : Anchor.targetDeclaration.Matches straddled ⟨⟨3, 12⟩, some TargetKind.target.word⟩ :=
    .targetDeclaration .target
      (show straddled = "// ".toList ++ '.' :: ("target".toList ++ (['\n'] ++ '(' :: "a) .target (b)".toList)) from rfl)
      (by decide)
  obtain ⟨found, hcode, hexact, -, hwhole, -, hapart⟩ := codeOccurrences_exact (.inr rfl) hi
  obtain rfl := Except.ok.inj (hfound.symm.trans hcode)
  have hmem := List.mem_singleton_self (⟨⟨15, 24⟩, some TargetKind.target.word⟩ : Occurrence)
  refine ⟨_, _, hhidden, ?_, ?_, hfound, rfl, ?_, (hwhole _ hmem).1⟩
  · exact (holds_iff_inLiteral hi).mp (by decide +kernel)
  · exact fun h => absurd ((holds_iff_inLiteral hi).mpr h) (by decide +kernel)
  · exact hapart _ _ hhidden ((hexact _).mp hmem).1 (by decide)

end PackageInstaller.Manifest
