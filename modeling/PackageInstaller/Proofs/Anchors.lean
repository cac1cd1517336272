import Mathlib.Data.List.Forall2
import PackageInstaller.Manifest.Anchor
import PackageInstaller.Proofs.Index
import PackageInstaller.Proofs.Segments

/-! The calls that begin in the code of a text: where a word and its parenthesis stand among the pieces,
and what follows the parenthesis. -/

namespace PackageInstaller.Manifest

/-- Whether a text takes no word further that ends where the text begins. -/
def Stops (z : Text) : Prop :=
  ∀ c, (z.dropWhile Text.isBlank).head? = some c → c ≠ '(' ∧ c.isAlpha = false

lemma callLength?_eq_some {word t : Text} {n : Nat} : callLength? word t = some n ↔
    ∃ w r, t = word ++ w ++ '(' :: r ∧ (∀ c ∈ w, Text.isBlank c = true) ∧
      n = word.length + w.length + 1 := by
  unfold callLength?
  constructor
  · intro h
    split_ifs at h with hp
    obtain ⟨s, rfl⟩ := List.isPrefixOf_iff_prefix.mp hp
    simp only [List.drop_left] at h
    split at h
    · rename_i r hr
      refine ⟨s.takeWhile Text.isBlank, r, ?_, fun c hc => List.mem_takeWhile_imp hc,
        (Option.some.inj h).symm⟩
      rw [← hr, List.append_assoc, List.takeWhile_append_dropWhile]
    · simp at h
  · rintro ⟨w, r, rfl, hw, rfl⟩
    have hb : Text.isBlank '(' = false := by decide
    rw [List.append_assoc, if_pos (List.isPrefixOf_iff_prefix.mpr (List.prefix_append _ _))]
    simp [List.dropWhile_append_of_pos hw, List.takeWhile_append_of_pos hw, hb]

/-- Whether a call begins in a text does not depend on what stops it. -/
lemma callLength?_append {word u z : Text}
    (hw : ∀ c ∈ word.tail, Text.isBlank c = false ∧ c.isAlpha = true) (hu : u ≠ []) (hz : Stops z) :
    callLength? word (u ++ z) = callLength? word u := by
  ext n
  rw [callLength?_eq_some, callLength?_eq_some]
  constructor
  · rintro ⟨w, r, ht, hb, rfl⟩
    have hparen : ∀ v, (∀ c ∈ v, Text.isBlank c = true) → z ≠ v ++ '(' :: r := by
      rintro v hv rfl
      have := hz '(' (by
        rw [List.dropWhile_append_of_pos hv, List.dropWhile_cons_of_neg (by decide)]
        rfl)
      exact this.1 rfl
    rcases append_eq_append_cons ht with ⟨f, hf, hr⟩ | ⟨e, rfl, rfl⟩
    · rcases List.append_eq_append_iff.mp hf with ⟨d, -, rfl⟩ | ⟨d, hd, rfl⟩
      · exact absurd hr (hparen f fun c hc => hb c (List.mem_append_right _ hc))
      · cases d with
        | nil => exact absurd hr (hparen w hb)
        | cons c d =>
          have hc : c ∈ word.tail := by
            obtain ⟨e, u, rfl⟩ := List.exists_cons_of_ne_nil hu
            rw [hd]
            simp
          have := hz c (by
            rw [hr, List.cons_append, List.cons_append, List.dropWhile_cons_of_neg (by simp [(hw c hc).1])]
            rfl)
          rw [(hw c hc).2] at this
          simp at this
    · exact ⟨w, e, by simp, hb, rfl⟩
  · rintro ⟨w, r, rfl, hb, rfl⟩
    exact ⟨w, r ++ z, by simp, hb, rfl⟩

lemma callLength?_word {initial : Char} {word w r : Text}
    (h : callLength? (initial :: word) (initial :: w ++ '(' :: r) = some (w.length + 2)) :
    ∃ v, w = word ++ v ∧ ∀ c ∈ v, Text.isBlank c = true := by
  obtain ⟨v, r', ht, hv, hn⟩ := callLength?_eq_some.mp h
  simp only [List.cons_append, List.append_assoc, List.cons.injEq, true_and, List.length_cons] at ht hn
  rw [← List.append_assoc] at ht
  exact ⟨v, (List.append_inj ht (by rw [List.length_append]; omega)).1, hv⟩

lemma targetLength?_word {w r : Text} {kind : TargetKind}
    (h : targetLength? ('.' :: w ++ '(' :: r) = some (w.length + 2, kind)) :
    ∃ v, w = kind.word ++ v ∧ ∀ c ∈ v, Text.isBlank c = true := by
  obtain ⟨kind', -, hk⟩ := List.exists_of_findSome?_eq_some h
  obtain ⟨n, hn, he⟩ := Option.map_eq_some_iff.mp hk
  obtain ⟨rfl, rfl⟩ := Prod.mk.inj he
  exact callLength?_word hn

lemma targetLength?_eq_some {kind : TargetKind} {w r : Text} (hw : ∀ c ∈ w, Text.isBlank c = true) :
    targetLength? ('.' :: (kind.word ++ (w ++ '(' :: r))) = some (kind.word.length + w.length + 2, kind) := by
  have hn : callLength? ('.' :: kind.word) ('.' :: (kind.word ++ (w ++ '(' :: r))) =
      some (kind.word.length + w.length + 2) :=
    callLength?_eq_some.mpr ⟨w, r, by simp, hw, by rw [List.length_cons]; omega⟩
  rw [targetLength?, targetKinds]
  cases kind with
  | target => rw [List.findSome?_cons, hn]; rfl
  | testTarget =>
    rw [List.findSome?_cons, List.findSome?_cons, hn]
    rfl
  | executableTarget =>
    rw [List.findSome?_cons, List.findSome?_cons, List.findSome?_cons, hn]
    rfl

lemma callLength?_opener {word : Text} {o k : Char} (ho : closerOf? o = some k)
    (hw : ∀ c ∈ word, Ordinary c) (u r r' : Text) :
    callLength? word (u ++ o :: r) = callLength? word (u ++ o :: r') := by
  have hno : ¬Ordinary o := fun h => by simp [h.2.1.1] at ho
  have key : ∀ r r' n, callLength? word (u ++ o :: r) = some n →
      callLength? word (u ++ o :: r') = some n := by
    intro r r' n h
    rw [callLength?_eq_some] at h ⊢
    obtain ⟨w, s, ht, hb, rfl⟩ := h
    rcases append_cons_eq_append_cons ht with ⟨rfl, rfl, -⟩ | ⟨m, hm, -⟩ | ⟨m, rfl, -⟩
    · exact ⟨w, r', by simp, hb, rfl⟩
    · have hmem : o ∈ word ++ w := by
        rw [hm]
        simp
      rcases List.mem_append.mp hmem with hmem | hmem
      · exact absurd (hw o hmem) hno
      · exact absurd (ordinary_of_isBlank (hb o hmem)) hno
    · exact ⟨w, m ++ o :: r', by simp, hb, rfl⟩
  ext n
  exact ⟨key r r' n, key r' r n⟩

/-- An anchor matches a call whose word begins with `initial` and has that character nowhere else. -/
structure Anchor.Calls (anchor : Anchor) (initial : Char) : Prop where
  ordinary : Ordinary initial
  shape {before : Option Char} {t : Text} {n : Nat} {capture : Option Text} :
    anchor.matchHead? before t = some (n, capture) →
      ∃ w r, t = initial :: w ++ '(' :: r ∧ n = w.length + 2 ∧ ∀ c ∈ w, Ordinary c ∧ c ≠ initial
  append (before : Option Char) {u z : Text} : u ≠ [] → Stops z →
    anchor.matchHead? before (u ++ z) = anchor.matchHead? before u
  opener (before : Option Char) {o k : Char} (u r r' : Text) : closerOf? o = some k →
    anchor.matchHead? before (u ++ o :: r) = anchor.matchHead? before (u ++ o :: r')

lemma packageCall_calls : Anchor.packageCall.Calls 'P' := by
  refine ⟨by decide, ?_, fun before u z hu hz => ?_, fun before o k u r r' ho => ?_⟩
  · intro before t n capture h
    simp only [Anchor.matchHead?] at h
    split_ifs at h
    obtain ⟨m, hm, he⟩ := Option.map_eq_some_iff.mp h
    obtain ⟨rfl, rfl⟩ := Prod.mk.inj he
    obtain ⟨w, r, rfl, hw, rfl⟩ := callLength?_eq_some.mp hm
    refine ⟨packageWord.tail ++ w, r, rfl, by simp [packageWord]; omega, fun c hc => ?_⟩
    rcases List.mem_append.mp hc with hc | hc
    · have hp : ∀ c ∈ packageWord.tail, Ordinary c ∧ c ≠ 'P' := by decide
      exact hp c hc
    · refine ⟨ordinary_of_isBlank (hw c hc), ?_⟩
      rintro rfl
      exact absurd (hw _ hc) (by decide)
  · have hw : ∀ c ∈ packageWord.tail, Text.isBlank c = false ∧ c.isAlpha = true := by decide
    simp only [Anchor.matchHead?, callLength?_append hw hu hz]
  · have hw : ∀ c ∈ packageWord, Ordinary c := by decide
    simp only [Anchor.matchHead?, callLength?_opener ho hw u r r']

lemma kindWord_ordinary (kind : TargetKind) :
    (∀ c ∈ kind.word, Ordinary c ∧ c ≠ '.') ∧
      ∀ c ∈ kind.word, Text.isBlank c = false ∧ c.isAlpha = true := by
  cases kind <;> decide

lemma targetDeclaration_calls : Anchor.targetDeclaration.Calls '.' := by
  refine ⟨by decide, ?_, fun before u z hu hz => ?_, fun before o k u r r' ho => ?_⟩
  · intro before t n capture h
    simp only [Anchor.matchHead?, Option.map_eq_some_iff] at h
    obtain ⟨⟨m, kind⟩, hm, he⟩ := h
    obtain ⟨rfl, rfl⟩ := Prod.mk.inj he
    obtain ⟨kind', -, hk⟩ := List.exists_of_findSome?_eq_some hm
    obtain ⟨m', hm', hp⟩ := Option.map_eq_some_iff.mp hk
    obtain ⟨rfl, rfl⟩ := Prod.mk.inj hp
    obtain ⟨w, r, rfl, hw, rfl⟩ := callLength?_eq_some.mp hm'
    refine ⟨kind'.word ++ w, r, rfl, by simp; omega, fun c hc => ?_⟩
    rcases List.mem_append.mp hc with hc | hc
    · exact (kindWord_ordinary kind').1 c hc
    · refine ⟨ordinary_of_isBlank (hw c hc), ?_⟩
      rintro rfl
      exact absurd (hw _ hc) (by decide)
  · have hk : ∀ kind : TargetKind, callLength? ('.' :: kind.word) (u ++ z) =
        callLength? ('.' :: kind.word) u :=
      fun kind => callLength?_append (kindWord_ordinary kind).2 hu hz
    simp only [Anchor.matchHead?, targetLength?, hk]
  · have hk : ∀ kind : TargetKind, callLength? ('.' :: kind.word) (u ++ o :: r) =
        callLength? ('.' :: kind.word) (u ++ o :: r') := by
      refine fun kind => callLength?_opener ho (fun c hc => ?_) u r r'
      rcases List.mem_cons.mp hc with rfl | hc
      · decide
      · exact ((kindWord_ordinary kind).1 c hc).1
    simp only [Anchor.matchHead?, targetLength?, hk]

lemma declarationLength?_opener {o k : Char} (ho : closerOf? o = some k) (u r r' : Text) :
    declarationLength? (u ++ o :: r) = declarationLength? (u ++ o :: r') := by
  have hd : ∀ c ∈ dependencyWord, Ordinary c := by decide
  have hp : ∀ r, dependencyWord.isPrefixOf (u ++ o :: r) = dependencyWord.isPrefixOf u := by
    intro r
    rw [Bool.eq_iff_iff, List.isPrefixOf_iff_prefix, List.isPrefixOf_iff_prefix]
    refine ⟨fun hpre => ?_, fun hpre => hpre.trans (List.prefix_append u _)⟩
    obtain ⟨t, ht⟩ := hpre
    obtain ⟨e, rfl, -⟩ := append_eq_append_cons_of_not_mem ht fun ho' => by simp [(hd o ho').2.1.1] at ho
    exact List.prefix_append _ e
  have hw : ∀ c ∈ dependencyWord ++ declarationWord, Ordinary c := by decide
  have hw' : ∀ c ∈ declarationWord, Ordinary c := by decide
  unfold declarationLength?
  rw [hp, hp, callLength?_opener ho hw u r r', callLength?_opener ho hw' u r r']

/-- A call in the code, and the pieces after its parenthesis. -/
structure Site where
  occurrence : Occurrence
  inside : List Piece

/-- The calls that begin in these pieces, when `z` follows them. -/
def sitesFrom (anchor : Anchor) (z : List Piece) : Nat → Option Char → List Piece → List Site
  | _, _, [] => []
  | pos, before, .literal l :: ps => sitesFrom anchor z (pos + l.length) (l.getLast?.or before) ps
  | pos, before, .char c :: ps =>
    match anchor.matchHead? before (c :: textOf (ps ++ z)) with
    | some (n, capture) =>
      ⟨⟨⟨pos, pos + n⟩, capture⟩, (ps ++ z).drop (n - 1)⟩ :: sitesFrom anchor z (pos + 1) (some c) ps
    | none => sitesFrom anchor z (pos + 1) (some c) ps

variable {anchor : Anchor} {initial : Char}

lemma getLast?_or (c : Char) (u : Text) (before : Option Char) :
    u.getLast?.or (some c) = (c :: u).getLast?.or before := by
  cases u with
  | nil => rfl
  | cons d u =>
    rw [List.getLast?_cons_cons, List.getLast?_eq_some_getLast (List.cons_ne_nil d u)]
    rfl

lemma occurrencesFrom_past (anchor : Anchor) (pos : Nat) (before : Option Char) (u t : Text) :
    anchor.occurrencesFrom u.length pos before (u ++ t) =
      anchor.occurrencesFrom 0 (pos + u.length) (u.getLast?.or before) t := by
  induction u generalizing pos before with
  | nil => rfl
  | cons c u ih =>
    rw [List.length_cons, List.cons_append, Anchor.occurrencesFrom, ih]
    congr 1
    · omega
    · exact getLast?_or c u before

lemma Anchor.Calls.none_of_ne (h : anchor.Calls initial) {c : Char} (hc : c ≠ initial)
    (before : Option Char) (t : Text) : anchor.matchHead? before (c :: t) = none := by
  cases hm : anchor.matchHead? before (c :: t) with
  | none => rfl
  | some r =>
    obtain ⟨n, capture⟩ := r
    obtain ⟨w, r, ht, -, -⟩ := h.shape hm
    exact absurd (List.cons.inj ht).1 hc

lemma occurrencesFrom_quiet (h : anchor.Calls initial) (pos : Nat) (before : Option Char) {u : Text}
    (t : Text) (hu : initial ∉ u) : anchor.occurrencesFrom 0 pos before (u ++ t) =
      anchor.occurrencesFrom 0 (pos + u.length) (u.getLast?.or before) t := by
  induction u generalizing pos before with
  | nil => rfl
  | cons c u ih =>
    rw [List.mem_cons, not_or] at hu
    rw [List.cons_append, Anchor.occurrencesFrom, h.none_of_ne (Ne.symm hu.1)]
    simp only
    rw [ih _ _ hu.2]
    congr 1
    · simp only [List.length_cons]
      omega
    · exact getLast?_or c u before

/-- No occurrence begins inside another one. -/
lemma occurrencesFrom_cons (h : anchor.Calls initial) (pos : Nat) (before : Option Char) (c : Char)
    (t : Text) : anchor.occurrencesFrom 0 pos before (c :: t) =
      ((anchor.matchHead? before (c :: t)).map fun (n, capture) =>
        (⟨⟨pos, pos + n⟩, capture⟩ : Occurrence)).toList ++
          anchor.occurrencesFrom 0 (pos + 1) (some c) t := by
  rw [Anchor.occurrencesFrom]
  cases hm : anchor.matchHead? before (c :: t) with
  | none => rfl
  | some r =>
    obtain ⟨n, capture⟩ := r
    obtain ⟨w, r, ht, rfl, hw⟩ := h.shape hm
    obtain ⟨rfl, rfl⟩ := List.cons.inj ht
    have hq : c ∉ w ++ ['('] := by
      rw [List.mem_append, List.mem_singleton, not_or]
      refine ⟨fun hc => (hw c hc).2 rfl, ?_⟩
      rintro rfl
      exact absurd h.ordinary (by decide)
    have hp := occurrencesFrom_past anchor (pos + 1) (some c) (w ++ ['(']) r
    rw [← occurrencesFrom_quiet h (pos + 1) (some c) r hq] at hp
    simp only [List.append_assoc, List.singleton_append, List.length_append,
      List.length_singleton] at hp
    simp only [Option.map_some, Option.toList_some, List.singleton_append]
    change _ :: anchor.occurrencesFrom _ _ _ (w ++ '(' :: r) =
      _ :: anchor.occurrencesFrom _ _ _ (w ++ '(' :: r)
    rw [show w.length + 2 - 1 = w.length + 1 by omega, hp]

lemma holds_char {a b : List Piece} {c : Char} (h : Lexed (a ++ .char c :: b)) :
    (LiteralIndex.mk (literalSpans 0 (a ++ .char c :: b)).toArray).holds (textOf a).length = false := by
  rw [← Bool.not_eq_true, holds_iff (literalSpans_ordered 0 h)]
  rintro ⟨span, hs, h₁, h₂⟩
  obtain ⟨a', l, b', hab, rfl⟩ := mem_literalSpans.mp hs
  simp only [Nat.zero_add] at h₁ h₂
  rcases append_cons_eq_append_cons hab with ⟨-, hc, -⟩ | ⟨m, rfl, -⟩ | ⟨m, rfl, -⟩
  · simp at hc
  · simp [Piece.text] at h₁
    omega
  · simp [Piece.text] at h₂
    omega

lemma holds_literal {a b : List Piece} {l : Text} (h : Lexed (a ++ .literal l :: b)) {i : Nat}
    (h₁ : (textOf a).length ≤ i) (h₂ : i < (textOf a).length + l.length) :
    (LiteralIndex.mk (literalSpans 0 (a ++ .literal l :: b)).toArray).holds i = true := by
  rw [holds_iff (literalSpans_ordered 0 h)]
  refine ⟨_, mem_literalSpans.mpr ⟨a, l, b, rfl, rfl⟩, ?_, ?_⟩
  · simp only [Nat.zero_add]
    omega
  · simp only [Nat.zero_add]
    omega

lemma filter_occurrencesFrom_past (h : anchor.Calls initial) {p : Occurrence → Bool} {pos : Nat}
    (before : Option Char) {l : Text} (t : Text)
    (hp : ∀ o : Occurrence, pos ≤ o.span.start → o.span.start < pos + l.length → p o = false) :
    (anchor.occurrencesFrom 0 pos before (l ++ t)).filter p =
      (anchor.occurrencesFrom 0 (pos + l.length) (l.getLast?.or before) t).filter p := by
  induction l generalizing pos before with
  | nil => rfl
  | cons c l ih =>
    rw [List.length_cons] at hp
    rw [List.cons_append, occurrencesFrom_cons h, List.filter_append,
      ih (some c) fun o h₁ h₂ => hp o (by omega) (by omega), getLast?_or]
    have hpos : pos + 1 + l.length = pos + (c :: l).length := by
      rw [List.length_cons]
      omega
    rw [hpos]
    cases anchor.matchHead? before (c :: (l ++ t)) with
    | none => rfl
    | some r => simp [hp ⟨⟨pos, pos + r.1⟩, r.2⟩ (Nat.le_refl _) (by simp)]

lemma filter_occurrencesFrom (h : anchor.Calls initial) {whole a ps : List Piece}
    (hl : Lexed whole) (hw : whole = a ++ ps) (before : Option Char) :
    (anchor.occurrencesFrom 0 (textOf a).length before (textOf ps)).filter (fun o =>
      !(LiteralIndex.mk (literalSpans 0 whole).toArray).holds o.span.start) =
        (sitesFrom anchor [] (textOf a).length before ps).map (·.occurrence) := by
  induction ps generalizing a before with
  | nil => rfl
  | cons p ps ih =>
    have hstep := fun before => ih (a := a ++ [p]) (by simpa using hw) before
    have hpos : (textOf (a ++ [p])).length = (textOf a).length + p.text.length := by simp
    rw [hpos] at hstep
    subst hw
    cases p with
    | literal l =>
      rw [sitesFrom, textOf_cons, Piece.text, filter_occurrencesFrom_past h before _ fun o h₁ h₂ => by
        rw [holds_literal hl h₁ h₂]; rfl]
      exact hstep _
    | char c =>
      rw [sitesFrom, textOf_cons, Piece.text, List.cons_append, List.nil_append,
        occurrencesFrom_cons h, List.filter_append]
      have hrest := hstep (some c)
      simp only [Piece.text, List.length_singleton] at hrest
      rw [hrest, List.append_nil]
      cases anchor.matchHead? before (c :: textOf ps) with
      | none => rfl
      | some r =>
        obtain ⟨n, capture⟩ := r
        simp [holds_char hl]

/-- The occurrences that begin in code are the calls among the pieces. -/
theorem codeOccurrences_textOf (h : anchor.Calls initial) {ps : List Piece} (hl : Lexed ps) :
    anchor.codeOccurrences (textOf ps) 0 (textOf ps).length =
      .ok ((sitesFrom anchor [] 0 none ps).map (·.occurrence)) := by
  have hs : Text.slice (textOf ps) 0 (textOf ps).length = textOf ps := by simp [Text.slice]
  have hf := filter_occurrencesFrom h (a := []) hl rfl none
  simp only [textOf_nil, List.length_nil] at hf
  rw [Anchor.codeOccurrences, LiteralIndex.ofText, literalSpansFrom_textOf 0 hl, Anchor.occurrences,
    hs]
  simp only [Except.map, bind, Except.bind, pure, Except.pure, Anchor.charBefore?]
  rw [hf]

lemma sitesFrom_append (anchor : Anchor) (z a b : List Piece) (pos : Nat) (before : Option Char) :
    sitesFrom anchor z pos before (a ++ b) = sitesFrom anchor (b ++ z) pos before a ++
      sitesFrom anchor z (pos + (textOf a).length) ((textOf a).getLast?.or before) b := by
  induction a generalizing pos before with
  | nil => rfl
  | cons p a ih =>
    cases p with
    | literal l =>
      rw [List.cons_append, sitesFrom, sitesFrom, ih, textOf_cons, Piece.text, List.length_append,
        Nat.add_assoc, List.getLast?_append, Option.or_assoc]
    | char c =>
      rw [List.cons_append, sitesFrom, sitesFrom, ih, textOf_cons, Piece.text, List.singleton_append,
        ← getLast?_or, List.length_cons, List.append_assoc]
      cases anchor.matchHead? before (c :: textOf (a ++ (b ++ z))) with
      | none => simp only [Nat.add_assoc, Nat.add_comm 1]
      | some r => simp only [Nat.add_assoc, Nat.add_comm 1, List.cons_append]

/-- Where a call stands in `ps`, which `z` follows, and what its word and its parenthesis are. -/
def Site.Begins (anchor : Anchor) (initial : Char) (z ps : List Piece) (pos : Nat) (s : Site) : Prop :=
  ∃ a b w before', ps = a ++ .char initial :: b ∧ (∀ c ∈ w, Ordinary c) ∧
    ps ++ z = a ++ .char initial :: (chars w ++ .char '(' :: s.inside) ∧
    s.occurrence.span = ⟨pos + (textOf a).length, pos + (textOf a).length + (w.length + 2)⟩ ∧
    anchor.matchHead? before' (initial :: w ++ '(' :: textOf s.inside) = some (w.length + 2, s.occurrence.capture)

lemma Site.Begins.cons {z ps : List Piece} {pos : Nat} {s : Site} (p : Piece)
    (h : s.Begins anchor initial z ps (pos + p.text.length)) : s.Begins anchor initial z (p :: ps) pos := by
  obtain ⟨a, b, w, before', rfl, hw, hz, hspan, hm⟩ := h
  refine ⟨p :: a, b, w, before', rfl, hw, by rw [List.cons_append, hz]; rfl, ?_, hm⟩
  rw [hspan, textOf_cons, List.length_append, Nat.add_assoc pos]

lemma exists_of_mem_sitesFrom (h : anchor.Calls initial) {z ps : List Piece} {pos : Nat}
    {before : Option Char} {s : Site} (hl : Lexed (ps ++ z)) (hs : s ∈ sitesFrom anchor z pos before ps) :
    s.Begins anchor initial z ps pos := by
  induction ps generalizing pos before with
  | nil => simp [sitesFrom] at hs
  | cons p ps ih =>
    have hl' : Lexed (ps ++ z) := hl.tail
    cases p with
    | literal l => exact (ih hl' hs).cons _
    | char c =>
      rw [sitesFrom] at hs
      split at hs
      · rename_i n capture hm
        rcases List.mem_cons.mp hs with rfl | hs
        · obtain ⟨w, r, ht, rfl, hw⟩ := h.shape hm
          obtain ⟨rfl, hrest⟩ := List.cons.inj ht
          change textOf (ps ++ z) = w ++ '(' :: r at hrest
          obtain ⟨rs, hrs, hr⟩ := hl'.exists_word hrest (fun d hd => (hw d hd).1.1) (by decide)
          have hdrop : (ps ++ z).drop (w.length + 2 - 1) = rs := by
            rw [hrs]
            exact drop_word w _ rs
          refine ⟨[], ps, w, before, rfl, fun d hd => (hw d hd).1, ?_, rfl, ?_⟩
          · simp only [hdrop]
            rw [List.cons_append, hrs]
            rfl
          · simp only [hdrop, hr]
            rwa [hrest] at hm
        · exact (ih hl' hs).cons _
      · exact (ih hl' hs).cons _

/-- The same call with other pieces far after it. -/
def Site.Kept (z z' : List Piece) (s s' : Site) : Prop :=
  s'.occurrence = s.occurrence ∧ ∃ r, s.inside = r ++ z ∧ s'.inside = r ++ z'

/-- The calls in pieces do not depend on what stops the last of their words. -/
lemma sitesFrom_kept (h : anchor.Calls initial) {z z' ps : List Piece} (pos : Nat)
    (before : Option Char) (hl : Lexed (ps ++ z)) (hz : Stops (textOf z)) (hz' : Stops (textOf z')) :
    List.Forall₂ (Site.Kept z z') (sitesFrom anchor z pos before ps)
      (sitesFrom anchor z' pos before ps) := by
  induction ps generalizing pos before with
  | nil => exact .nil
  | cons p ps ih =>
    have hl' : Lexed (ps ++ z) := hl.tail
    cases p with
    | literal l => exact ih _ _ hl'
    | char c =>
      have hm : ∀ y, Stops (textOf y) → anchor.matchHead? before (c :: textOf (ps ++ y)) =
          anchor.matchHead? before (c :: textOf ps) := by
        intro y hy
        rw [textOf_append, ← List.cons_append]
        exact h.append before (by simp) hy
      rw [sitesFrom, sitesFrom, hm z hz, hm z' hz']
      cases hr : anchor.matchHead? before (c :: textOf ps) with
      | none => exact ih _ _ hl'
      | some r =>
        obtain ⟨n, capture⟩ := r
        obtain ⟨w, r, ht, rfl, hw⟩ := h.shape hr
        obtain ⟨rfl, hrest⟩ := List.cons.inj ht
        change textOf ps = w ++ '(' :: r at hrest
        obtain ⟨rs, rfl, -⟩ := hl'.left.exists_word hrest (fun d hd => (hw d hd).1.1) (by decide)
        have hdrop : ∀ y, (chars w ++ .char '(' :: rs ++ y).drop (w.length + 2 - 1) = rs ++ y := by
          intro y
          rw [List.append_assoc]
          exact drop_word w _ _
        exact .cons ⟨rfl, rs, hdrop z, hdrop z'⟩ (ih _ _ hl')

lemma sitesFrom_quiet (h : anchor.Calls initial) {z ps : List Piece} (pos : Nat)
    (before : Option Char) (hq : Piece.char initial ∉ ps) : sitesFrom anchor z pos before ps = [] := by
  induction ps generalizing pos before with
  | nil => rfl
  | cons p ps ih =>
    rw [List.mem_cons, not_or] at hq
    cases p with
    | literal l => exact ih _ _ hq.2
    | char c =>
      have hc : c ≠ initial := fun he => hq.1 (by rw [he])
      rw [sitesFrom, h.none_of_ne hc]
      exact ih _ _ hq.2

/-- The same call in a text where it stands elsewhere. -/
def Site.Moved (pos pos' : Nat) (s s' : Site) : Prop :=
  s'.inside = s.inside ∧ s'.occurrence.capture = s.occurrence.capture ∧
    ∃ i j, i < j ∧ s.occurrence.span = ⟨pos + i, pos + j⟩ ∧ s'.occurrence.span = ⟨pos' + i, pos' + j⟩

lemma Site.Moved.later {pos pos' d : Nat} {s s' : Site} (h : Site.Moved (pos + d) (pos' + d) s s') :
    Site.Moved pos pos' s s' := by
  obtain ⟨h₁, h₂, i, j, hij, h₃, h₄⟩ := h
  exact ⟨h₁, h₂, d + i, d + j, by omega, by rw [h₃]; simp only [Nat.add_assoc], by
    rw [h₄]; simp only [Nat.add_assoc]⟩

lemma sitesFrom_moved (h : anchor.Calls initial) (z : List Piece) (pos pos' : Nat)
    (before : Option Char) (ps : List Piece) : List.Forall₂ (Site.Moved pos pos')
      (sitesFrom anchor z pos before ps) (sitesFrom anchor z pos' before ps) := by
  induction ps generalizing pos pos' before with
  | nil => exact .nil
  | cons p ps ih =>
    cases p with
    | literal l => exact (ih _ _ _).imp fun _ _ hm => hm.later
    | char c =>
      rw [sitesFrom, sitesFrom]
      cases hm : anchor.matchHead? before (c :: textOf (ps ++ z)) with
      | none => exact (ih _ _ _).imp fun _ _ hm => hm.later
      | some r =>
        obtain ⟨w, r', -, hn, -⟩ := @Anchor.Calls.shape _ _ h _ _ r.1 r.2 hm
        exact .cons ⟨rfl, rfl, 0, r.1, by omega, rfl, rfl⟩ ((ih _ _ _).imp fun _ _ hm => hm.later)

lemma sitesFrom_before (h : anchor.Calls initial) {z ps : List Piece} (pos : Nat)
    (before before' : Option Char) (hl : Lexed (ps ++ z))
    (hq : anchor = .targetDeclaration ∨ ps.head? ≠ some (.char initial)) :
    sitesFrom anchor z pos before ps = sitesFrom anchor z pos before' ps := by
  cases ps with
  | nil => rfl
  | cons p ps =>
    cases p with
    | literal l =>
      have hne : l ≠ [] := hl.text_ne_nil
      rw [sitesFrom, sitesFrom, List.getLast?_eq_some_getLast hne]
      rfl
    | char c =>
      rw [sitesFrom, sitesFrom]
      rcases hq with rfl | hq
      · rfl
      · have hc : c ≠ initial := by simpa using hq
        rw [h.none_of_ne hc, h.none_of_ne hc]

end PackageInstaller.Manifest
