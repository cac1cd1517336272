import PackageInstaller.Proofs.Occurrences
import PackageInstaller.Proofs.Partition

/-! One lexing of a text: wherever code is read on from, the comments and string literals met are those of the index of
the whole text, and so the scanners that begin at a bracket take for code what the index takes for code. -/

namespace PackageInstaller.Manifest

/-- Whoever reads on from `i`, literals whole and all else one character after the other, meets these literals. -/
inductive Meets (t : Text) : Nat → List Span → Prop
  | finish {i : Nat} : t.length ≤ i → Meets t i []
  | literal {i e : Nat} {spans : List Span} : skipLiteral? t i = .ok (some e) → Meets t e spans →
    Meets t i (⟨i, e⟩ :: spans)
  | char {i : Nat} {spans : List Span} : i < t.length → skipLiteral? t i = .ok none → Meets t (i + 1) spans →
    Meets t i spans

/-- The index tells where the literals of the text are, and every scan that begins in code agrees with it. -/
structure LiteralIndex.Agrees (index : LiteralIndex) (t : Text) : Prop where
  ordered : Ordered index.spans.toList
  inside : ∀ span ∈ index.spans.toList, span.stop ≤ t.length
  holds : ∀ offset : Int,
    index.holds offset = true ↔ ∃ span ∈ index.spans.toList, span.toInterval.contains offset = true
  whole : ∀ spans, Meets t 0 spans ↔ spans = index.spans.toList
  onward : ∀ p : Nat, index.holds p = false → ∀ spans,
    Meets t p spans ↔ spans = index.spans.toList.filter fun span => p ≤ span.start
  code : ∀ p q : Nat, index.holds p = false → q < t.length →
    (Reaches t p q ∧ skipLiteral? t q = .ok none ↔ p ≤ q ∧ index.holds q = false)
  closer : ∀ p c : Nat, index.holds p = false → findClosing t p = .ok c → index.holds c = false
  commas : ∀ (p : Nat) (args : ArgumentList), index.holds p = false → splitArguments t p = .ok args →
    ∀ item ∈ args.items, ∀ comma, item.comma = some comma → index.holds comma = false

variable {t l : Text} {i j p q closer : Nat} {c : Char} {ps a b : List Piece} {spans : List Span}
  {index : LiteralIndex} {items : List Argument}

lemma Span.contains_toInterval {span : Span} {offset : Int} :
    span.toInterval.contains offset = true ↔ (span.start : Int) ≤ offset ∧ offset < span.stop := by
  rw [Interval.contains, Bool.and_eq_true, decide_eq_true_iff, decide_eq_true_iff]
  rfl

lemma meets_iff : Meets t i spans ↔ ∃ ps, Lexed ps ∧ t.drop i = textOf ps ∧ spans = literalSpans i ps := by
  constructor
  · intro h
    induction h with
    | finish hle => exact ⟨[], .nil, List.drop_eq_nil_of_le hle, rfl⟩
    | @literal i e spans hskip _ ih =>
      obtain ⟨l, hl⟩ := Between.literal hskip
      obtain ⟨ps, hps, htext, rfl⟩ := ih
      have hstop : e = i + l.length := by simpa [Piece.text] using hl.stop
      have hlex := hl.lexed.1
      rw [textOf_nil, List.nil_append, htext] at hlex
      refine ⟨.literal l :: ps, .literal hlex hps, ?_, ?_⟩
      · rw [hl.text, htext, ← textOf_append, List.singleton_append]
      · rw [literalSpans, hstop]
    | @char i spans hlt hskip _ ih =>
      obtain ⟨ps, hps, htext, rfl⟩ := ih
      have hdrop := drop_eq_cons.mp (List.getElem?_eq_getElem hlt)
      rw [skipLiteral?_eq_none, hdrop, htext] at hskip
      refine ⟨.char t[i] :: ps, .char hskip hps, ?_, rfl⟩
      rw [hdrop, htext]
      rfl
  · rintro ⟨ps, hps, htext, rfl⟩
    induction hps generalizing i with
    | nil => exact .finish (List.drop_eq_nil_iff.mp htext)
    | @char c ps hc _ ih =>
      have hdrop : t.drop i = c :: textOf ps := htext
      have hlt : i < t.length := by
        by_contra hge
        rw [List.drop_eq_nil_of_le (Nat.le_of_not_lt hge)] at hdrop
        simp at hdrop
      refine .char hlt (skipLiteral?_eq_none.mpr (hdrop ▸ hc)) (ih ?_)
      rw [← List.drop_drop, hdrop, List.drop_one, List.tail_cons]
    | @literal l ps hl _ ih =>
      have hdrop : t.drop i = l ++ textOf ps := htext
      refine .literal (skipLiteral?_eq_some.mpr ⟨l.length, hdrop ▸ hl, rfl⟩) (ih ?_)
      rw [← List.drop_drop, hdrop, List.drop_left]

lemma Meets.unique {spans' : List Span} (h : Meets t i spans) (h' : Meets t i spans') : spans = spans' := by
  obtain ⟨ps, hps, ht, rfl⟩ := meets_iff.mp h
  obtain ⟨qs, hqs, ht', rfl⟩ := meets_iff.mp h'
  rw [hps.eq_of_textOf hqs (ht.symm.trans ht')]

lemma meets_iff_of_drop (h : Lexed ps) (hdrop : t.drop i = textOf ps) :
    Meets t i spans ↔ spans = literalSpans i ps := by
  have hmeets : Meets t i (literalSpans i ps) := meets_iff.mpr ⟨ps, h, hdrop, rfl⟩
  constructor
  · exact fun hm => hm.unique hmeets
  · rintro rfl
    exact hmeets

lemma exists_cut (h : ∀ a l b, ps = a ++ .literal l :: b → ¬((textOf a).length ≤ p ∧ p < (textOf a).length + l.length))
    (hp : p ≤ (textOf ps).length) : ∃ a b, ps = a ++ b ∧ (textOf a).length = p := by
  induction ps generalizing p with
  | nil => exact ⟨[], [], rfl, (Nat.le_zero.mp hp).symm⟩
  | cons r ps ih =>
    by_cases hzero : p = 0
    · exact ⟨[], r :: ps, rfl, hzero.symm⟩
    · have hle : r.text.length ≤ p := by
        cases r with
        | char c => exact Nat.pos_of_ne_zero hzero
        | literal l =>
          have := h [] l ps rfl
          simp only [textOf_nil, List.length_nil, Nat.zero_add, Nat.zero_le, true_and, Nat.not_lt] at this
          exact this
      rw [textOf_cons, List.length_append] at hp
      have hrest : ∀ a l b, ps = a ++ .literal l :: b →
          ¬((textOf a).length ≤ p - r.text.length ∧ p - r.text.length < (textOf a).length + l.length) := by
        rintro a l b rfl hin
        refine h (r :: a) l b rfl ?_
        rw [textOf_cons, List.length_append]
        omega
      obtain ⟨a, b, rfl, ha⟩ := ih hrest (by omega)
      refine ⟨r :: a, b, rfl, ?_⟩
      rw [textOf_cons, List.length_append]
      omega

lemma Partition.reaches (h : Partition t closer i items) : ∀ item ∈ items, ∀ comma, item.comma = some comma →
    Reaches t i comma ∧ t[comma]? = some ',' := by
  induction h with
  | nil => simp
  | last _ _ _ hnone => simp [hnone]
  | @cons i p item items hl hi ht hget hcomma _ ih =>
    obtain ⟨ls, hls, -⟩ := trivia_iff.mp hl
    obtain ⟨cs, hcs, -⟩ := item_iff.mp hi
    obtain ⟨rs, hrs, -⟩ := trivia_iff.mp ht
    have hreach : Reaches t i p := (hls.append (hcs.append hrs)).reaches
    have hplain : skipLiteral? t p = .ok none :=
      skipLiteral?_plain hget (by decide)
    refine List.forall_mem_cons.mpr ⟨fun comma h => ?_, fun item' hitem comma h => ?_⟩
    · obtain rfl := Option.some.inj (hcomma.symm.trans h)
      exact ⟨hreach, hget⟩
    · obtain ⟨honward, hat⟩ := ih item' hitem comma h
      exact ⟨hreach.trans (.char hplain hget honward), hat⟩

lemma filter_literalSpans (h : Lexed (a ++ b)) :
    (literalSpans 0 (a ++ b)).filter (fun span => (textOf a).length ≤ span.start) =
      literalSpans (textOf a).length b := by
  have hpos := (literalSpans_ordered 0 h).1
  rw [literalSpans_append, Nat.zero_add] at hpos ⊢
  rw [List.filter_append]
  have hbefore : (literalSpans 0 a).filter (fun span => (textOf a).length ≤ span.start) = [] := by
    refine List.filter_eq_nil_iff.mpr fun span hs => ?_
    have := hpos span (List.mem_append_left _ hs)
    have := literalSpans_stop_le hs
    simp only [decide_eq_true_eq]
    omega
  have hbehind : (literalSpans (textOf a).length b).filter (fun span => (textOf a).length ≤ span.start) =
      literalSpans (textOf a).length b :=
    List.filter_eq_self.mpr fun span hs => decide_eq_true (literalSpans_start_le hs)
  rw [hbefore, hbehind, List.nil_append]

lemma Reaches.opener {o k : Char} (ho : t[p]? = some o) (hk : closerOf? o = some k) (h : Reaches t (p + 1) q) :
    Reaches t p q :=
  (Between.opener ho hk).reaches.trans h

section Lexed

variable (h : Lexed ps)
include h

lemma exists_cut_of_outside (hout : (LiteralIndex.mk (literalSpans 0 ps).toArray).holds p = false)
    (hp : p ≤ (textOf ps).length) : ∃ a b, ps = a ++ b ∧ (textOf a).length = p := by
  refine exists_cut ?_ hp
  rintro a l b rfl ⟨hle, hlt⟩
  rw [holds_literal h hle hlt] at hout
  simp at hout

/-- Code is what the scan from the beginning takes for code. -/
lemma holds_eq_false_iff (hq : q < (textOf ps).length) :
    (LiteralIndex.mk (literalSpans 0 ps).toArray).holds q = false ↔
      Reaches (textOf ps) 0 q ∧ skipLiteral? (textOf ps) q = .ok none := by
  constructor
  · intro hout
    obtain ⟨a, b, rfl, ha⟩ := exists_cut_of_outside h hout (Nat.le_of_lt hq)
    obtain ⟨j, hleft, hright⟩ := h.between.split
    obtain rfl : j = q := by rw [hleft.stop, Nat.zero_add, ha]
    cases b with
    | nil =>
      rw [List.append_nil, ha] at hq
      exact absurd hq (Nat.lt_irrefl _)
    | cons r b =>
      obtain ⟨e, hr, -⟩ := hright.split_cons
      cases r with
      | char c => exact ⟨hleft.reaches, hr.skip_char.1⟩
      | literal l =>
        have := literalLength?_bounds h.right.literal_head
        rw [holds_literal h (Nat.le_of_eq ha) (by omega)] at hout
        simp at hout
  · rintro ⟨hreach, hskip⟩
    obtain ⟨a, ha⟩ := reaches_iff.mp hreach
    have hin : ∃ b, ps = a ++ b ∧ Between (textOf ps) q (textOf ps).length b := by
      rcases h.between.cut ha with hb | ⟨b, -, hb⟩
      · exact hb
      · exact absurd hb.le (Nat.not_le_of_lt hq)
    obtain ⟨b, hps, hb⟩ := hin
    have hstop : q = (textOf a).length := by rw [ha.stop, Nat.zero_add]
    cases b with
    | nil => exact absurd hb.stop.symm (Nat.ne_of_lt hq)
    | cons r b =>
      obtain ⟨e, hr, -⟩ := hb.split_cons
      cases r with
      | char c =>
        rw [hps] at h
        rw [hps, hstop]
        exact holds_char h
      | literal l =>
        rw [hr.skip_literal] at hskip
        simp at hskip

variable (hp : (LiteralIndex.mk (literalSpans 0 ps).toArray).holds p = false)
include hp

lemma reaches_code_iff (hq : q < (textOf ps).length) :
    Reaches (textOf ps) p q ∧ skipLiteral? (textOf ps) q = .ok none ↔
      p ≤ q ∧ (LiteralIndex.mk (literalSpans 0 ps).toArray).holds q = false := by
  rw [holds_eq_false_iff h hq]
  have hstart : p ≤ q → Reaches (textOf ps) 0 p := fun hle =>
    ((holds_eq_false_iff h (Nat.lt_of_le_of_lt hle hq)).mp hp).1
  constructor
  · rintro ⟨hreach, hskip⟩
    exact ⟨hreach.le, (hstart hreach.le).trans hreach, hskip⟩
  · rintro ⟨hle, hreach, hskip⟩
    exact ⟨reaches_iff.mpr ((hstart hle).between hreach hle), hskip⟩

lemma holds_of_reaches (hreach : Reaches (textOf ps) p q) (hc : (textOf ps)[q]? = some c) (hplain : Plain c) :
    (LiteralIndex.mk (literalSpans 0 ps).toArray).holds q = false :=
  ((reaches_code_iff h hp (List.getElem?_eq_some_iff.mp hc).1).mp ⟨hreach, skipLiteral?_plain hc hplain⟩).2

lemma meets_onward_iff :
    Meets (textOf ps) p spans ↔ spans = (literalSpans 0 ps).filter fun span => p ≤ span.start := by
  rcases Nat.lt_or_ge (textOf ps).length p with hpast | hle
  · -- behind the end there is nothing to meet, and every literal begins before the end
    rw [meets_iff_of_drop .nil (List.drop_eq_nil_of_le (Nat.le_of_lt hpast)), List.filter_eq_nil_iff.mpr]
    · rfl
    · intro span hs
      have := literalSpans_stop_le hs
      have := (literalSpans_ordered 0 h).1 span hs
      simp only [decide_eq_true_eq]
      omega
  · obtain ⟨a, b, rfl, rfl⟩ := exists_cut_of_outside h hp hle
    rw [filter_literalSpans h]
    exact meets_iff_of_drop h.right (drop_textOf a b)

end Lexed

/-- Where all literals of a text can be read, there is one reading of them: the index holds them in order and without
overlap, halving finds what a search through all of them finds, and no scan that begins in code sees it otherwise. -/
theorem LiteralIndex.ofText_agrees (h : LiteralIndex.ofText t = .ok index) : index.Agrees t := by
  obtain ⟨spans, hspans, -⟩ := map_eq_ok.mp h
  obtain ⟨ps, hl, rfl⟩ := exists_lexed hspans
  obtain rfl := Except.ok.inj ((ofText_textOf hl).symm.trans h)
  refine ⟨literalSpans_ordered 0 hl, fun span hs => ?_, fun offset => ?_,
    fun _ => meets_iff_of_drop hl List.drop_zero, fun _ hp _ => meets_onward_iff hl hp,
    fun _ _ hp hq => reaches_code_iff hl hp hq, fun p c hp hc => ?_,
    fun p args hp hargs item hitem comma hcomma => ?_⟩
  · have := literalSpans_stop_le hs
    rwa [Nat.zero_add] at this
  · simp only [Span.contains_toInterval]
    exact holds_iff (literalSpans_ordered 0 hl) offset
  · obtain ⟨o, k, b, ho, hk, hb, -, hclose⟩ := matched_iff.mp (findClosing_eq_ok.mp hc)
    exact holds_of_reaches hl hp (hb.reaches.opener ho hk) hclose (plain_of_closerOf? hk).2
  · obtain ⟨closer, hclose, -⟩ := bind_eq_ok.mp hargs
    obtain ⟨o, k, b, ho, hk, -, -, -⟩ := matched_iff.mp (findClosing_eq_ok.mp hclose)
    have hitems := ((splitArguments_partitions ho hk).1 args hargs).items
    obtain ⟨hreach, hat⟩ := hitems.reaches item hitem comma hcomma
    exact holds_of_reaches hl hp (hreach.opener ho hk) hat (by decide)

/-- Runs of `#` in code and around a string, a block comment that a line comment adjoins, brackets in both, and a string
that ends in interpolated code. -/
def adjoining : Text := "# f(##\"a\"#b\"##, /* ( */// [\n\"\\(\")\")\") x".toList

theorem LiteralIndex.ofText_agrees_adjoining : ∃ index, LiteralIndex.ofText adjoining = .ok index ∧
    index.spans.toList = [⟨4, 14⟩, ⟨16, 23⟩, ⟨23, 27⟩, ⟨28, 36⟩] ∧ index.Agrees adjoining ∧
    Meets adjoining 15 [⟨16, 23⟩, ⟨23, 27⟩, ⟨28, 36⟩] ∧ index.holds 36 = false ∧ index.holds (-1) = false := by
  have hi : LiteralIndex.ofText adjoining = .ok ⟨#[⟨4, 14⟩, ⟨16, 23⟩, ⟨23, 27⟩, ⟨28, 36⟩]⟩ := rfl
  have hagrees := LiteralIndex.ofText_agrees hi
  refine ⟨_, hi, rfl, hagrees, ?_, ?_, by decide +kernel⟩
  · exact (hagrees.onward 15 (by decide +kernel) _).mpr (by decide +kernel)
  · exact hagrees.closer 3 36 (by decide +kernel) (by decide +kernel)

end PackageInstaller.Manifest
