import PackageInstaller.Proofs.Segments

/-! What the reader of argument lists makes of the segments of a group: one argument for each, with the
label and the value that its core shows. -/

namespace PackageInstaller.Manifest

def Trivial (ps : List Piece) : Prop := ∀ p ∈ ps, p.isTrivia = true

/-- Neither blanks nor comments at either end. -/
def Solid (c : List Piece) : Prop :=
  (∀ p, c.head? = some p → p.isTrivia = false) ∧ ∀ p, c.getLast? = some p → p.isTrivia = false

lemma not_blank_of_closerOf? {o k : Char} (h : closerOf? o = some k) :
    Text.isBlank o = false ∧ Text.isBlank k = false := by
  unfold closerOf? at h
  split at h <;> simp only [Option.some.injEq, reduceCtorEq] at h <;> subst h <;> decide

lemma solid_group {o k : Char} (b : List Piece) (ho : closerOf? o = some k) :
    Solid (.char o :: (b ++ [.char k])) := by
  have hb := not_blank_of_closerOf? ho
  refine ⟨by simpa using hb.1, ?_⟩
  rw [← List.cons_append, List.getLast?_concat]
  simpa using hb.2

def trimmed (s : List Piece) : List Piece := s.rdropWhile Piece.isTrivia

def lead (s : List Piece) : List Piece := (trimmed s).takeWhile Piece.isTrivia

def core (s : List Piece) : List Piece := (trimmed s).dropWhile Piece.isTrivia

lemma lead_append_core (s : List Piece) : lead s ++ core s = trimmed s :=
  List.takeWhile_append_dropWhile

lemma lead_trivial (s : List Piece) : Trivial (lead s) := fun _ hp => List.mem_takeWhile_imp hp

lemma exists_trail (s : List Piece) : ∃ r, s = lead s ++ core s ++ r ∧ Trivial r := by
  refine ⟨s.rtakeWhile Piece.isTrivia, ?_, fun p hp => List.mem_rtakeWhile_imp hp⟩
  rw [lead_append_core]
  exact List.rdropWhile_append_rtakeWhile.symm

lemma trimmed_append (g r : List Piece) :
    trimmed (g ++ r) = if trimmed r = [] then trimmed g else g ++ trimmed r := by
  unfold trimmed List.rdropWhile
  rw [List.reverse_append, List.dropWhile_append]
  by_cases h : r.reverse.dropWhile Piece.isTrivia = []
  · simp [h]
  · simp [h]

lemma trimmed_eq_nil {s : List Piece} : trimmed s = [] ↔ Trivial s :=
  List.rdropWhile_eq_nil_iff

lemma trimmed_of_solid {c : List Piece} (h : Solid c) : trimmed c = c := by
  refine List.rdropWhile_eq_self_iff.mpr fun hn => ?_
  rw [h.2 _ (List.getLast?_eq_some_getLast hn)]
  exact Bool.false_ne_true

lemma trimmed_append_trivial (g : List Piece) {r : List Piece} (hr : Trivial r) :
    trimmed (g ++ r) = trimmed g := by
  rw [trimmed_append, if_pos (trimmed_eq_nil.mpr hr)]

lemma trimmed_append_solid {l c : List Piece} (hc : Solid c) (hn : c ≠ []) :
    trimmed (l ++ c) = l ++ c := by
  rw [trimmed_append, trimmed_of_solid hc, if_neg hn]

lemma core_solid (s : List Piece) : Solid (core s) := by
  refine ⟨fun p hp => ?_, fun p hp => ?_⟩
  · have hd := List.head?_dropWhile_not Piece.isTrivia (trimmed s)
    rw [core] at hp
    rwa [hp] at hd
  · have hn : core s ≠ [] := by
      intro he
      simp [he] at hp
    have hl : (trimmed s).getLast? = some p := by
      rw [← lead_append_core, List.getLast?_append_of_ne_nil _ hn, hp]
    have hne : trimmed s ≠ [] := by
      intro he
      simp [he] at hl
    rw [List.getLast?_eq_some_getLast hne, Option.some.injEq] at hl
    have := List.rdropWhile_last_not (p := Piece.isTrivia) (l := s) hne
    rw [← Bool.not_eq_true, ← hl]
    exact this

lemma core_eq_nil {s : List Piece} : core s = [] ↔ Trivial s := by
  rw [← trimmed_eq_nil, core, List.dropWhile_eq_nil_iff]
  constructor
  · intro h
    by_contra hn
    exact List.rdropWhile_last_not (p := Piece.isTrivia) (l := s) hn (h _ (List.getLast_mem hn))
  · intro h
    simp [h]

lemma lead_core_eq {l c r : List Piece} (hl : Trivial l) (hc : Solid c) (hn : c ≠ [])
    (hr : Trivial r) : lead (l ++ c ++ r) = l ∧ core (l ++ c ++ r) = c := by
  have ht : trimmed (l ++ c ++ r) = l ++ c := by
    rw [trimmed_append_trivial _ hr, trimmed_append_solid hc hn]
  obtain ⟨p, c, rfl⟩ := List.exists_cons_of_ne_nil hn
  have hp : p.isTrivia = false := hc.1 p rfl
  constructor
  · rw [lead, ht, List.takeWhile_append_of_pos hl, List.takeWhile_cons_of_neg (by simp [hp]),
      List.append_nil]
  · rw [core, ht, List.dropWhile_append_of_pos hl, List.dropWhile_cons_of_neg (by simp [hp])]

lemma core_trivial_append {l : List Piece} (hl : Trivial l) (s : List Piece) :
    core (l ++ s) = core s := by
  rw [core, trimmed_append]
  split_ifs with h
  · rw [trimmed_eq_nil.mpr hl, core, h]
  · rw [List.dropWhile_append_of_pos hl]
    rfl

/-- What is being read of an element once a segment at `pos` is read as well. -/
def absorbed (pos : Nat) (current : Option Span) (s : List Piece) : Option Span :=
  if core s = [] then current
  else extend current (pos + (textOf (lead s)).length) (pos + (textOf (trimmed s)).length)

lemma absorbed_trivia {p : Piece} (h : p.isTrivia = true) (pos : Nat) (current : Option Span)
    (r : List Piece) : absorbed pos current (p :: r) = absorbed (pos + p.text.length) current r := by
  have hp : Trivial [p] := by simpa [Trivial] using h
  unfold absorbed
  rw [← List.singleton_append, core_trivial_append hp]
  split_ifs with hr
  · rfl
  · have ht : trimmed r ≠ [] := fun h => hr (core_eq_nil.mpr (trimmed_eq_nil.mp h))
    have ht' : trimmed ([p] ++ r) = p :: trimmed r := by rw [trimmed_append, if_neg ht]; rfl
    have hl : lead ([p] ++ r) = p :: lead r := by
      rw [lead, ht', List.takeWhile_cons_of_pos h]
      rfl
    rw [ht', hl, textOf_cons, textOf_cons, List.length_append, List.length_append,
      Nat.add_assoc, Nat.add_assoc]

lemma absorbed_solid {g : List Piece} (hg : Solid g) (hn : g ≠ []) (pos : Nat)
    (current : Option Span) (r : List Piece) :
    absorbed pos current (g ++ r) = absorbed (pos + (textOf g).length)
      (extend current pos (pos + (textOf g).length)) r := by
  obtain ⟨p, g, rfl⟩ := List.exists_cons_of_ne_nil hn
  have hp : p.isTrivia = false := hg.1 p rfl
  have ht : trimmed (p :: g ++ r) = p :: g ++ trimmed r := by
    rw [trimmed_append, trimmed_of_solid hg]
    split_ifs with h
    · rw [h, List.append_nil]
    · rfl
  have hl : lead (p :: g ++ r) = [] := by
    rw [lead, ht, List.cons_append, List.takeWhile_cons_of_neg (by simp [hp])]
  have hc : core (p :: g ++ r) ≠ [] := by
    rw [core, ht, List.cons_append, List.dropWhile_cons_of_neg (by simp [hp])]
    simp
  rw [absorbed, if_neg hc, hl, ht, absorbed]
  split_ifs with hr
  · rw [trimmed_eq_nil.mpr (core_eq_nil.mp hr), List.append_nil]
    rfl
  · simp only [extend, textOf_append, textOf_nil, List.length_nil, List.length_append, Nat.add_zero,
      Option.map_some, Option.getD_some, Nat.add_assoc]

lemma absorbed_cons (p : Piece) (pos : Nat) (current : Option Span) (r : List Piece) :
    absorbed pos current (p :: r) = absorbed (pos + p.text.length)
      (if p.isTrivia then current else extend current pos (pos + p.text.length)) r := by
  cases hp : p.isTrivia with
  | true => exact absorbed_trivia hp pos current r
  | false =>
    have hsolid := absorbed_solid (g := [p]) ⟨by simpa using hp, by simpa using hp⟩ (by simp) pos current r
    simpa using hsolid

lemma opensComment_literal {l t : Text} (h : literalLength? (l ++ t) = .ok (some l.length)) :
    opensComment (l ++ t) = (Piece.literal l).isTrivia := by
  have hb := literalLength?_bounds h
  match l with
  | [] | [_] => simp at hb
  | c :: d :: l =>
    rw [opensComment, Piece.isTrivia]
    cases ho : opening? (c :: d :: l ++ t) with
    | none => rw [literalLength?_eq_none.mpr ho] at h; simp at h
    | some opening =>
      cases opening with
      | lineComment => simp [eq_slash_of_opening? ho (by simp)]
      | blockComment => simp [eq_slash_of_opening? ho (by simp)]
      | string hashes multiline =>
        have hc : c ≠ '/' := by
          rintro rfl
          simp only [List.cons_append, opening?_slash] at ho
          split_ifs at ho <;> simp at ho
        simp [hc]

lemma elementsFrom_drop (closer skip pos : Nat) (current : Option Span) (t : Text) :
    elementsFrom closer skip pos current t = elementsFrom closer 0 (pos + skip) current (t.drop skip) := by
  induction skip generalizing pos t with
  | zero => rfl
  | succ skip ih =>
    cases t with
    | nil => rfl
    | cons c t =>
      rw [elementsFrom, ih, List.drop_succ_cons]
      congr 1
      omega

lemma elementsFrom_literal {closer pos : Nat} {l t : Text} (current : Option Span)
    (h : literalLength? (l ++ t) = .ok (some l.length)) (hc : pos < closer) :
    elementsFrom closer 0 pos current (l ++ t) = elementsFrom closer 0 (pos + l.length)
      (if (Piece.literal l).isTrivia then current else extend current pos (pos + l.length)) t := by
  have ho := opensComment_literal h
  cases l with
  | nil => simpa using literalLength?_bounds h
  | cons c l =>
    rw [List.cons_append] at h ho ⊢
    rw [elementsFrom, if_neg (by omega), h]
    simp only [List.length_cons, Nat.add_sub_cancel, ho]
    rw [elementsFrom_drop, List.drop_left, Nat.add_right_comm, Nat.add_assoc]

lemma elementsFrom_group {closer pos : Nat} {o k : Char} {b : List Piece} {z : Text}
    (current : Option Span) (ho : closerOf? o = some k) (hb : Balanced b)
    (h : LexedBefore z (.char o :: (b ++ [.char k]))) (hc : pos < closer) :
    elementsFrom closer 0 pos current (o :: (textOf b ++ k :: z)) =
      elementsFrom closer 0 (pos + ((textOf b).length + 2))
        (extend current pos (pos + ((textOf b).length + 2))) z := by
  have ht : textOf (b ++ [.char k]) ++ z = textOf b ++ k :: z := by simp [Piece.text]
  have hlex : LexedBefore (k :: z) b := by simpa [Piece.text] using (lexedBefore_append.mp h.tail).1
  have hg := groupLength_group ho hb hlex
  have hn := h.1
  rw [ht] at hn
  rw [elementsFrom, if_neg (by omega), hn]
  simp only [ho, Option.isSome_some, if_true, hg]
  have hu : textOf b ++ k :: z = (textOf b ++ [k]) ++ z := by simp
  have hl : (textOf b).length + 2 - 1 = (textOf b ++ [k]).length := by simp
  rw [hu, hl, elementsFrom_drop, List.drop_left]
  congr 1
  rw [List.length_append, List.length_singleton]
  omega

lemma elementsFrom_char {closer pos : Nat} {c : Char} {t : Text} (current : Option Span)
    (hn : literalLength? (c :: t) = .ok none) (hi : Inner c) (hcomma : c ≠ ',') (hc : pos < closer) :
    elementsFrom closer 0 pos current (c :: t) = elementsFrom closer 0 (pos + 1)
      (if Text.isBlank c then current else extend current pos (pos + 1)) t := by
  rw [elementsFrom, if_neg (by omega), hn]
  simp only [hi.1, Option.isSome_none, Bool.false_eq_true, if_false, hcomma]
  split_ifs <;> rfl

/-- A segment is read as one element, or as none when it holds only blanks and comments. -/
lemma elementsFrom_segment {closer pos : Nat} {s : List Piece} {z : Text} (current : Option Span)
    (hs : Segment s) (h : LexedBefore z s) (hc : pos + (textOf s).length ≤ closer) :
    elementsFrom closer 0 pos current (textOf s ++ z) =
      elementsFrom closer 0 (pos + (textOf s).length) (absorbed pos current s) z := by
  induction hk : s.length using Nat.strongRecOn generalizing s pos current with
  | ind k ih =>
    rcases hs.cases with rfl | ⟨l, r, rfl, hr⟩ | ⟨c, r, rfl, hi, hcc, hr⟩ | ⟨o, k', b, r, rfl, ho, hb, hr⟩
    · rfl
    · have hl := h.1
      have hb := literalLength?_bounds hl
      rw [textOf_cons, Piece.text, List.length_append] at hc ⊢
      rw [List.append_assoc, elementsFrom_literal current hl (by omega),
        ih r.length (by simp at hk; omega) _ hr h.tail (by omega) rfl, Nat.add_assoc, absorbed_cons]
      rfl
    · rw [textOf_cons, Piece.text, List.length_append, List.length_singleton] at hc ⊢
      rw [List.append_assoc, List.singleton_append, elementsFrom_char current h.1 hi hcc (by omega),
        ih r.length (by simp at hk; omega) _ hr h.tail (by omega) rfl, Nat.add_assoc, absorbed_cons]
      rfl
    · have hsplit : Piece.char o :: (b ++ .char k' :: r) = (.char o :: (b ++ [.char k'])) ++ r := by simp
      rw [hsplit, lexedBefore_append] at h
      have hlen : (textOf (.char o :: (b ++ .char k' :: r))).length =
          (textOf b).length + 2 + (textOf r).length := by
        simp [Piece.text]
        omega
      have htext : textOf (.char o :: (b ++ .char k' :: r)) ++ z =
          o :: (textOf b ++ k' :: (textOf r ++ z)) := by
        simp [Piece.text]
      rw [hlen] at hc ⊢
      rw [htext, elementsFrom_group current ho hb h.1 (by omega), ih r.length (by simp at hk; omega) _ hr
        h.2 (by omega) rfl, Nat.add_assoc]
      congr 1
      have := absorbed_solid (solid_group b ho) (by simp) pos current r
      simp only [List.cons_append, List.append_assoc, List.nil_append] at this
      rw [this]
      simp [Piece.text, Nat.add_assoc]

lemma triviaEndFrom_drop {skip : Nat} {t : Text} (stop pos : Nat) (h : skip ≤ t.length) :
    triviaEndFrom stop skip pos t = triviaEndFrom stop 0 (pos + skip) (t.drop skip) := by
  induction skip generalizing pos t with
  | zero => rfl
  | succ skip ih =>
    cases t with
    | nil => simp at h
    | cons c t =>
      rw [triviaEndFrom, ih _ (by simpa using h), List.drop_succ_cons]
      congr 1
      omega

lemma triviaEndFrom_textOf {stop pos : Nat} {c : List Piece} {z : Text} (h : LexedBefore z c)
    (hs : stop = pos + (textOf c).length) :
    triviaEndFrom stop 0 pos (textOf c ++ z) =
      .ok (pos + (textOf (c.takeWhile Piece.isTrivia)).length) := by
  induction c generalizing pos with
  | nil =>
    obtain rfl : stop = pos := by simpa using hs
    rw [textOf_nil, List.nil_append, List.takeWhile_nil]
    cases z <;> simp [triviaEndFrom]
  | cons p c ih =>
    rw [textOf_cons, List.length_append] at hs
    have onward : p.isTrivia = true →
        triviaEndFrom stop 0 (pos + p.text.length) (textOf c ++ z) =
          .ok (pos + (textOf ((p :: c).takeWhile Piece.isTrivia)).length) := by
      intro hp
      rw [ih h.tail (by omega), List.takeWhile_cons_of_pos hp, textOf_cons, List.length_append,
        Nat.add_assoc]
    cases p with
    | char d =>
      rw [textOf_cons, Piece.text, List.append_assoc, List.singleton_append, triviaEndFrom,
        if_neg (by simp [Piece.text] at hs; omega)]
      cases hd : Text.isBlank d with
      | true => exact onward hd
      | false =>
        have ho : opensComment (d :: (textOf c ++ z)) = false := by
          rw [opensComment, literalLength?_eq_none.mp h.1]
        rw [ho, List.takeWhile_cons_of_neg (by simp [Piece.isTrivia, hd])]
        simp
    | literal l =>
      have hl := h.1
      have ho := opensComment_literal hl
      rw [textOf_cons, Piece.text, List.append_assoc]
      cases l with
      | nil => simpa using literalLength?_bounds hl
      | cons d l =>
        rw [List.cons_append] at hl ho ⊢
        have hd : Text.isBlank d = false := by
          rcases hb : Text.isBlank d with _ | _
          · rfl
          · rw [literalLength?_of_plain _ (ordinary_of_isBlank hb).1] at hl
            simp at hl
        rw [triviaEndFrom, if_neg (by simp [Piece.text] at hs; omega), hd, ho]
        cases ht : (Piece.literal (d :: l)).isTrivia with
        | true =>
          simp only [Bool.false_eq_true, if_false, if_true, hl, Option.getD_some, List.length_cons,
            Nat.add_sub_cancel]
          rw [triviaEndFrom_drop _ _ (by simp), List.drop_left, Nat.add_right_comm, Nat.add_assoc]
          exact onward ht
        | false => simp [ht]

end PackageInstaller.Manifest
