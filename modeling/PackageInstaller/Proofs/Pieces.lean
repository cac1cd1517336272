import Mathlib.Data.List.TakeWhile
import PackageInstaller.Manifest.LiteralIndex
import PackageInstaller.Proofs.ListBasic
import PackageInstaller.Proofs.Locality

/-! A text as the sequence of its pieces: comments and string literals, each whole, and the characters
of the code between them. Where pieces are exchanged, those before and after are read as they were. -/

namespace PackageInstaller.Manifest

inductive Piece where
  | char (c : Char)
  | literal (l : Text)
  deriving DecidableEq

def Piece.text : Piece → Text
  | .char c => [c]
  | .literal l => l

def textOf (ps : List Piece) : Text := ps.flatMap Piece.text

def chars (t : Text) : List Piece := t.map .char

@[simp] lemma textOf_nil : textOf [] = [] := rfl

@[simp] lemma textOf_cons (p : Piece) (ps : List Piece) : textOf (p :: ps) = p.text ++ textOf ps :=
  List.flatMap_cons

@[simp] lemma textOf_append (ps qs : List Piece) : textOf (ps ++ qs) = textOf ps ++ textOf qs :=
  List.flatMap_append

@[simp] lemma textOf_chars (t : Text) : textOf (chars t) = t := by
  induction t with
  | nil => rfl
  | cons c t ih => simpa [chars, Piece.text] using ih

@[simp] lemma chars_append (s t : Text) : chars (s ++ t) = chars s ++ chars t := List.map_append

lemma chars_length (w : Text) : (chars w).length = w.length := List.length_map _

lemma drop_word (w : Text) (p : Piece) (ps : List Piece) : (chars w ++ p :: ps).drop (w.length + 1) = ps := by
  rw [← chars_length w, ← List.drop_drop, List.drop_left, List.drop_one, List.tail_cons]

/-- Pieces that the scanner cuts their text into. -/
inductive Lexed : List Piece → Prop
  | nil : Lexed []
  | char {c : Char} {ps : List Piece} :
    literalLength? (c :: textOf ps) = .ok none → Lexed ps → Lexed (.char c :: ps)
  | literal {l : Text} {ps : List Piece} :
    literalLength? (l ++ textOf ps) = .ok (some l.length) → Lexed ps → Lexed (.literal l :: ps)

/-- Pieces that the scanner cuts their text into when `z` follows it. -/
def LexedBefore (z : Text) : List Piece → Prop
  | [] => True
  | .char c :: ps => literalLength? (c :: (textOf ps ++ z)) = .ok none ∧ LexedBefore z ps
  | .literal l :: ps =>
    literalLength? (l ++ (textOf ps ++ z)) = .ok (some l.length) ∧ LexedBefore z ps

lemma Lexed.tail {p : Piece} {ps : List Piece} (h : Lexed (p :: ps)) : Lexed ps := by
  cases h <;> assumption

lemma Lexed.right {ps qs : List Piece} (h : Lexed (ps ++ qs)) : Lexed qs := by
  induction ps with
  | nil => exact h
  | cons p ps ih => exact ih h.tail

lemma Lexed.char_head {c : Char} {ps : List Piece} (h : Lexed (.char c :: ps)) :
    literalLength? (c :: textOf ps) = .ok none := by
  cases h
  assumption

lemma Lexed.literal_head {l : Text} {ps : List Piece} (h : Lexed (.literal l :: ps)) :
    literalLength? (l ++ textOf ps) = .ok (some l.length) := by
  cases h
  assumption

lemma LexedBefore.tail {z : Text} {p : Piece} {ps : List Piece} (h : LexedBefore z (p :: ps)) :
    LexedBefore z ps := by
  cases p <;> exact h.2

lemma lexedBefore_append {z : Text} {ps qs : List Piece} :
    LexedBefore z (ps ++ qs) ↔ LexedBefore (textOf qs ++ z) ps ∧ LexedBefore z qs := by
  induction ps with
  | nil => simp [LexedBefore]
  | cons p ps ih => cases p <;> simp [LexedBefore, ih, and_assoc]

lemma lexed_append {ps qs : List Piece} : Lexed (ps ++ qs) ↔ LexedBefore (textOf qs) ps ∧ Lexed qs := by
  induction ps with
  | nil => simp [LexedBefore]
  | cons p ps ih =>
    constructor
    · intro h
      have hrest := ih.mp h.tail
      cases p with
      | char c => exact ⟨⟨by simpa using h.char_head, hrest.1⟩, hrest.2⟩
      | literal l => exact ⟨⟨by simpa using h.literal_head, hrest.1⟩, hrest.2⟩
    · rintro ⟨h, hqs⟩
      have hrest := ih.mpr ⟨h.tail, hqs⟩
      cases p with
      | char c => exact .char (by simpa using h.1) hrest
      | literal l => exact .literal (by simpa using h.1) hrest

lemma lexed_iff {ps : List Piece} : Lexed ps ↔ LexedBefore [] ps := by
  have := @lexed_append ps []
  rw [List.append_nil, textOf_nil] at this
  exact this.trans (and_iff_left .nil)

lemma literalLength?_eq_none {t : Text} : literalLength? t = .ok none ↔ opening? t = none := by
  unfold literalLength?
  split
  · simp_all
  · simp_all
  · split <;> simp_all
  · rename_i hashes multiline ho
    cases run (hashes + quoteCount multiline) 0 [.string 0 hashes multiline] t <;>
      simp [Except.map, ho]

lemma map_eq_ok {ε α β : Type} {r : Except ε α} {f : α → β} {b : β} :
    r.map f = .ok b ↔ ∃ a, r = .ok a ∧ f a = b := by
  cases r <;> simp [Except.map]

lemma map_eq_error {ε α β : Type} {r : Except ε α} {f : α → β} {x : ε} : r.map f = .error x ↔ r = .error x := by
  cases r <;> simp [Except.map]

lemma bind_eq_ok {ε α β : Type} {r : Except ε α} {f : α → Except ε β} {y : β} :
    (r >>= f) = .ok y ↔ ∃ x, r = .ok x ∧ f x = .ok y := by
  cases r <;> simp [bind, Except.bind]

lemma mapError_eq_ok {ε ε' α : Type} {r : Except ε α} {g : ε → ε'} {x : α} :
    r.mapError g = .ok x ↔ r = .ok x := by
  cases r <;> simp [Except.mapError]

lemma toOption_eq_some {ε α : Type} {r : Except ε α} {a : α} : r.toOption = some a ↔ r = .ok a := by
  cases r <;> simp [Except.toOption]

lemma isOk_iff {ε α : Type} {r : Except ε α} : r.isOk = true ↔ ∃ a, r = .ok a := by
  cases r with
  | ok a => exact iff_of_true rfl ⟨a, rfl⟩
  | error e => exact iff_of_false Bool.false_ne_true (by simp)

lemma literalLength?_string {t : Text} {hashes n : Nat} {multiline : Bool}
    (h : opening? t = some (.string hashes multiline)) :
    literalLength? t = .ok (some n) ↔
      run (hashes + quoteCount multiline) 0 [.string 0 hashes multiline] t = .ok n := by
  rw [literalLength?, h, map_eq_ok]
  simp

lemma literalLength?_bounds {t : Text} {n : Nat} (h : literalLength? t = .ok (some n)) :
    2 ≤ n ∧ n ≤ t.length := by
  unfold literalLength? at h
  split at h
  · simp at h
  · rename_i ho
    obtain rfl : lineCommentLength t = n := by simpa using h
    have hl : lineCommentLength t ≤ t.length := (List.takeWhile_sublist _).length_le
    rcases t with _ | ⟨c, _ | ⟨d, t⟩⟩
    · simp [opening?, hashRun, stringOpening?] at ho
    · have hc := eq_slash_of_opening? ho (by simp)
      subst hc
      simp [opening?, hashRun, stringOpening?] at ho
    · have hc := eq_slash_of_opening? ho (by simp)
      subst hc
      rw [opening?_slash] at ho
      split_ifs at ho with hd
      · subst hd
        exact ⟨by simp [lineCommentLength], hl⟩
      · simp at ho
  · split at h
    · rename_i hb
      obtain rfl := Option.some.inj (Except.ok.inj h)
      exact blockCommentLength?_bounds hb
    · simp at h
  · rename_i hashes multiline ho
    have := quoteCount_pos multiline
    have hb := run_bounds ((literalLength?_string ho).mp (by rw [literalLength?, ho]; exact h))
      (.inr (by simp))
    simp only [leastRest, Frame.least] at hb
    omega

lemma lineCommentLength_eq_length {l s : Text} (h : lineCommentLength (l ++ s) = l.length) :
    '\n' ∉ l ∧ (s = [] ∨ s.head? = some '\n') := by
  have hsplit := List.takeWhile_append_dropWhile (p := fun c => decide (c ≠ '\n')) (l := l ++ s)
  obtain ⟨hl, hs⟩ := List.append_inj hsplit h
  refine ⟨fun hm => ?_, ?_⟩
  · rw [← hl] at hm
    simpa using List.mem_takeWhile_imp hm
  · have hd := List.head?_dropWhile_not (fun c => decide (c ≠ '\n')) (l ++ s)
    rw [hs] at hd
    cases s with
    | nil => exact .inl rfl
    | cons c s => exact .inr (by simpa using hd)

lemma lineCommentLength_of_notMem {l s : Text} (hl : '\n' ∉ l) (hs : s = [] ∨ s.head? = some '\n') :
    lineCommentLength (l ++ s) = l.length := by
  unfold lineCommentLength
  rw [List.takeWhile_append_of_pos (by intro c hc; simpa using fun h : c = '\n' => hl (h ▸ hc))]
  rcases hs with rfl | hs
  · simp
  · cases s with
    | nil => simp at hs
    | cons c s =>
      obtain rfl : c = '\n' := by simpa using hs
      simp

lemma threeQuotes_append {v s : Text} (h : v.length = 2) :
    ['"', '"', '"'].isPrefixOf (v ++ s) = true ↔ v = ['"', '"'] ∧ s.head? = some '"' := by
  match v, h with
  | [a, b], _ => cases s <;> simp [List.isPrefixOf, eq_comm (a := '"'), and_assoc]

lemma opening?_congr {c : Char} {l s : Text} (s' : Text) {hashes : Nat} {multiline : Bool}
    (h : opening? (c :: l ++ s) = some (.string hashes multiline))
    (hl : 2 * (quoteCount multiline + hashes) ≤ (c :: l).length)
    (hq : s'.head? = some '"' → s.head? = some '"') :
    opening? (c :: l ++ s') = some (.string hashes multiline) := by
  have hk : hashes = hashRun (c :: l ++ s) := hashes_eq_of_opening? h
  have hpos := quoteCount_pos multiline
  have hc : c ≠ '/' := by
    rintro rfl
    match l with
    | [] =>
      simp only [List.length_cons, List.length_nil] at hl
      omega
    | d :: l =>
      simp only [List.cons_append, opening?_slash] at h
      split_ifs at h <;> simp at h
  have hle := hashRun_le (c :: l)
  have hlt : hashRun (c :: l) < (c :: l).length := by
    refine Nat.lt_of_le_of_ne hle fun he => ?_
    rw [hashRun_append_full s he] at hk
    omega
  have hr : ∀ s, hashRun (c :: (l ++ s)) = hashRun (c :: l) := fun s =>
    hashRun_append (u := c :: l) s hlt
  rw [hashRun_append s hlt] at hk
  have hd : ∀ s : Text, (c :: (l ++ s)).drop (hashRun (c :: l)) =
      (c :: l).drop (hashRun (c :: l)) ++ s := fun s => by
    rw [← List.cons_append, List.drop_append_of_le_length (by omega)]
  rw [List.cons_append, opening?_of_ne _ hc, hr, hd] at h ⊢
  generalize hv : (c :: l).drop (hashRun (c :: l)) = v at h ⊢
  have hvl : v.length = (c :: l).length - hashRun (c :: l) := by rw [← hv, List.length_drop]
  by_cases h3 : 3 ≤ v.length
  · rw [stringOpening?_append s s' h3, h]
  · have hv2 : v.length = 2 := by omega
    have hne : v ≠ [] := by rintro rfl; simp at hv2
    rw [stringOpening?_eq, List.head?_append_of_ne_nil v hne] at h ⊢
    split_ifs at h ⊢
    injection h with h
    injection h with hk' hm
    have hf : multiline = false := by
      cases multiline with
      | false => rfl
      | true => simp only [quoteCount, if_true] at hl; omega
    have : ['"', '"', '"'].isPrefixOf (v ++ s') = false := by
      rw [← Bool.not_eq_true, threeQuotes_append hv2]
      rintro ⟨hvv, hs⟩
      rw [hf, ← Bool.not_eq_true, threeQuotes_append hv2] at hm
      exact hm ⟨hvv, hq hs⟩
    rw [this, hf, hk']

/-- A literal is read as before when another text follows it, unless that text lengthens a line
comment or makes the empty string begin a multi-line one. -/
theorem literalLength?_congr {l s : Text} (s' : Text)
    (h : literalLength? (l ++ s) = .ok (some l.length))
    (hq : l.head? ≠ some '/' → s'.head? = some '"' → s.head? = some '"')
    (hl : ['/', '/'].isPrefixOf l → s' = [] ∨ s'.head? = some '\n') :
    literalLength? (l ++ s') = .ok (some l.length) := by
  have hb := literalLength?_bounds h
  match l with
  | [] | [_] => simp at hb
  | c :: d :: l =>
    by_cases hc : c = '/'
    · subst hc
      simp only [List.cons_append, literalLength?, opening?_slash] at h ⊢
      by_cases hd : d = '/'
      · subst hd
        simp only [if_true] at h ⊢
        have hn := lineCommentLength_eq_length (l := '/' :: '/' :: l) (s := s) (by simpa using h)
        have := lineCommentLength_of_notMem hn.1 (hl rfl)
        simp only [List.cons_append] at this
        rw [this]
      · by_cases hd' : d = '*'
        · subst hd'
          simp only [show ¬('*' = '/') by decide, if_false, if_true] at h ⊢
          cases hn : blockCommentLength? 0 ('/' :: '*' :: (l ++ s)) with
          | none => simp [hn] at h
          | some n =>
            rw [hn] at h
            obtain rfl : n = ('/' :: '*' :: l).length := by simpa using h
            have := blockCommentLength?_append (u := '/' :: '*' :: l) (s := s) s' hn (Nat.le_refl _)
            simp only [List.cons_append] at this
            rw [this]
        · simp [hd, hd'] at h
    · cases ho : opening? (c :: (d :: l) ++ s) with
      | none => rw [literalLength?_eq_none.mpr ho] at h; simp at h
      | some opening =>
        cases opening with
        | lineComment => exact absurd (eq_slash_of_opening? ho (by simp)) hc
        | blockComment => exact absurd (eq_slash_of_opening? ho (by simp)) hc
        | string hashes multiline =>
          have hr := (literalLength?_string ho).mp h
          have hrb := run_bounds hr (.inr (by simp))
          simp only [leastRest, Frame.least] at hrb
          exact (literalLength?_string (opening?_congr s' ho (by omega) (hq (by simpa using hc)))).mpr
            (run_append s' hr (by omega) (by simp))

lemma lineComment_ends {l s : Text} (h : literalLength? (l ++ s) = .ok (some l.length))
    (hl : ['/', '/'].isPrefixOf l = true) : '\n' ∉ l ∧ (s = [] ∨ s.head? = some '\n') := by
  obtain ⟨l, rfl⟩ := List.isPrefixOf_iff_prefix.mp hl
  simp only [List.cons_append, List.nil_append, literalLength?, opening?_slash, if_true] at h
  exact lineCommentLength_eq_length (l := '/' :: '/' :: l) (by simpa using h)

/-- Whether a piece stays as it is when the text follows it. -/
def Piece.Joins (s : Text) : Piece → Prop
  | .char c =>
    (c = '/' → s.head? ≠ some '/' ∧ s.head? ≠ some '*') ∧
      (c = '#' → s.head? ≠ some '#' ∧ s.head? ≠ some '"')
  | .literal l =>
    (l.head? = some '/' ∨ s.head? ≠ some '"') ∧
      (['/', '/'].isPrefixOf l = true → s = [] ∨ s.head? = some '\n')

lemma opening?_of_joins {c : Char} {s s' : Text} (h : opening? (c :: s) = none)
    (hj : (Piece.char c).Joins s') : opening? (c :: s') = none := by
  obtain ⟨hs, hh⟩ := hj
  by_cases hc : c = '/'
  · subst hc
    cases s' with
    | nil => simp [opening?, hashRun, stringOpening?]
    | cons d s' =>
      have := hs rfl
      simp only [List.head?_cons, ne_eq, Option.some.injEq] at this
      rw [opening?_slash, if_neg this.1, if_neg this.2]
  · rw [opening?_of_ne _ hc, stringOpening?_eq] at h ⊢
    by_cases hc' : c = '#'
    · subst hc'
      have := hh rfl
      have h0 : hashRun s' = 0 := by
        cases s' with
        | nil => rfl
        | cons d s' =>
          have hd : d ≠ '#' := by simpa using this.1
          simp [hashRun, hd]
      rw [hashRun, h0, Nat.zero_add, List.drop_one, List.tail_cons, if_neg this.2]
    · have h0 : ∀ s, hashRun (c :: s) = 0 := fun s => by simp [hashRun, hc']
      rw [h0, List.drop_zero, List.head?_cons] at h ⊢
      split_ifs at h ⊢
      rfl

lemma LexedBefore.text_ne_nil {z : Text} {p : Piece} {ps : List Piece} (h : LexedBefore z (p :: ps)) :
    p.text ≠ [] := by
  cases p with
  | char => simp [Piece.text]
  | literal l =>
    rintro rfl
    exact absurd (literalLength?_bounds h.1).1 (by simp)

lemma LexedBefore.textOf_ne_nil {z : Text} {ps : List Piece} (h : LexedBefore z ps) (hn : ps ≠ []) :
    textOf ps ≠ [] := by
  obtain ⟨p, ps, rfl⟩ := List.exists_cons_of_ne_nil hn
  exact List.append_ne_nil_of_left_ne_nil h.text_ne_nil _

lemma Lexed.text_ne_nil {p : Piece} {ps : List Piece} (h : Lexed (p :: ps)) : p.text ≠ [] :=
  (lexed_iff.mp h).text_ne_nil

lemma Lexed.textOf_ne_nil {p : Piece} {ps : List Piece} (h : Lexed (p :: ps)) :
    textOf (p :: ps) ≠ [] :=
  (lexed_iff.mp h).textOf_ne_nil (List.cons_ne_nil _ _)

lemma literal_ne_hashes {l s : Text} (h : literalLength? (l ++ s) = .ok (some l.length)) :
    hashRun l < l.length := by
  have hb := literalLength?_bounds h
  refine Nat.lt_of_le_of_ne (hashRun_le l) fun he => ?_
  match l with
  | [] => simp at hb
  | c :: l =>
    have hc : c = '#' := by
      have := eq_replicate_of_hashRun he
      rw [List.length_cons, List.replicate_succ] at this
      exact (List.cons.inj this).1
    subst hc
    cases ho : opening? ('#' :: l ++ s) with
    | none => rw [literalLength?_eq_none.mpr ho] at h; simp at h
    | some opening =>
      cases opening with
      | lineComment => exact absurd (eq_slash_of_opening? ho (by simp)) (by decide)
      | blockComment => exact absurd (eq_slash_of_opening? ho (by simp)) (by decide)
      | string hashes multiline =>
        have hk : hashes = hashRun ('#' :: l ++ s) := hashes_eq_of_opening? ho
        have hr := run_bounds ((literalLength?_string ho).mp h) (.inr (by simp))
        have := quoteCount_pos multiline
        rw [hashRun_append_full s he] at hk
        simp only [leastRest, Frame.least] at hr
        omega

lemma hashRun_eq_length {u : Text} : hashRun u = u.length ↔ ∀ c ∈ u, c = '#' := by
  constructor
  · intro h c hc
    rw [eq_replicate_of_hashRun h] at hc
    exact List.eq_of_mem_replicate hc
  · intro h
    rw [List.eq_replicate_of_mem h, hashRun_replicate, List.length_replicate]

lemma hashes_before {ps : List Piece} {s s' : Text} (h : LexedBefore s ps) (hn : ps ≠ [])
    (hh : ∀ c ∈ textOf ps, c = '#') (hj : ∀ p, ps.getLast? = some p → p.Joins s') :
    hashRun s' = 0 ∧ s'.head? ≠ some '"' := by
  obtain ⟨ps, p, rfl⟩ := (List.eq_nil_or_concat' ps).resolve_left hn
  have hp := hj p (by simp)
  cases p with
  | literal l =>
    have := literal_ne_hashes (lexedBefore_append.mp h).2.1
    have := hashRun_eq_length.mpr fun c (hc : c ∈ l) => hh c (by simp [Piece.text, hc])
    omega
  | char c =>
    obtain rfl : c = '#' := hh c (by simp [Piece.text])
    obtain ⟨h₁, h₂⟩ := hp.2 rfl
    refine ⟨?_, h₂⟩
    cases s' with
    | nil => rfl
    | cons d s' =>
      have hd : d ≠ '#' := by simpa using h₁
      simp [hashRun, hd]

lemma LexedBefore.char_rejoin {c : Char} {ps : List Piece} {s t : Text}
    (h : LexedBefore s (.char c :: ps))
    (hj : ∀ p, (Piece.char c :: ps).getLast? = some p → p.Joins t) :
    literalLength? (c :: (textOf ps ++ t)) = .ok none := by
  have hc := h.1
  rw [literalLength?_eq_none] at hc ⊢
  by_cases hn : ps = []
  · subst hn
    exact opening?_of_joins hc (hj _ rfl)
  · have hj' : ∀ p, ps.getLast? = some p → p.Joins t := fun p hp => hj p (by
      obtain ⟨q, ps, rfl⟩ := List.exists_cons_of_ne_nil hn
      rw [List.getLast?_cons_cons, hp])
    by_cases hh : ∀ d ∈ c :: textOf ps, d = '#'
    · -- hashes only do not come to begin a string
      have hps : ∀ d ∈ textOf ps, d = '#' := fun d hd => hh d (List.mem_cons_of_mem _ hd)
      obtain ⟨h0, h1⟩ := hashes_before h.tail hn hps hj'
      obtain rfl : c = '#' := hh c List.mem_cons_self
      have hr := hashRun_append_full t (hashRun_eq_length.mpr hh)
      rw [h0, Nat.add_zero] at hr
      rw [← List.cons_append, List.cons_append, opening?_of_ne _ (by decide), ← List.cons_append,
        hr, List.drop_left, stringOpening?_eq, if_neg h1]
    · refine opening?_append_none t hc ?_ fun _ => h.tail.textOf_ne_nil hn
      exact Nat.lt_of_le_of_ne (hashRun_le _) fun he => hh (hashRun_eq_length.mp he)

lemma LexedBefore.literal_rejoin {l : Text} {ps : List Piece} {s t : Text}
    (h : LexedBefore s (.literal l :: ps))
    (hj : ∀ p, (Piece.literal l :: ps).getLast? = some p → p.Joins t) :
    literalLength? (l ++ (textOf ps ++ t)) = .ok (some l.length) := by
  have hl := h.1
  by_cases hn : ps = []
  · subst hn
    obtain ⟨h₁, h₂⟩ := hj _ rfl
    exact literalLength?_congr _ hl (fun hc hq => absurd hq (h₁.resolve_left hc)) h₂
  · have hne := h.tail.textOf_ne_nil hn
    have hhead : (textOf ps ++ t).head? = (textOf ps ++ s).head? := by
      rw [List.head?_append_of_ne_nil _ hne, List.head?_append_of_ne_nil _ hne]
    refine literalLength?_congr _ hl (fun _ hq => hhead ▸ hq) fun hs => .inr ?_
    rw [hhead]
    exact (lineComment_ends hl hs).2.resolve_left (List.append_ne_nil_of_left_ne_nil hne _)

lemma joins_tail {p : Piece} {ps : List Piece} {t : Text}
    (hj : ∀ q, (p :: ps).getLast? = some q → q.Joins t) : ∀ q, ps.getLast? = some q → q.Joins t := by
  intro q hq
  refine hj q ?_
  cases ps with
  | nil => simp at hq
  | cons r ps => rw [List.getLast?_cons_cons, hq]

/-- Another text may follow pieces, if the last of them stays as it is. -/
theorem LexedBefore.rejoin {ps : List Piece} {s t : Text} (h : LexedBefore s ps)
    (hj : ∀ p, ps.getLast? = some p → p.Joins t) : LexedBefore t ps := by
  induction ps with
  | nil => trivial
  | cons p ps ih =>
    have hrest := ih h.tail (joins_tail hj)
    cases p with
    | char c => exact ⟨h.char_rejoin hj, hrest⟩
    | literal l => exact ⟨h.literal_rejoin hj, hrest⟩

lemma joins_nil (p : Piece) : p.Joins [] := by
  cases p with
  | char c => exact ⟨fun _ => by simp, fun _ => by simp⟩
  | literal l => exact ⟨by simp, fun _ => .inl rfl⟩

lemma LexedBefore.lexed {ps : List Piece} {s : Text} (h : LexedBefore s ps) : Lexed ps :=
  lexed_iff.mpr (h.rejoin fun p _ => joins_nil p)

/-- The pieces at the end of a lexed text may be exchanged for others, if the last of those before
them stays as it is. -/
theorem Lexed.replace {ps qs qs' : List Piece} (h : Lexed (ps ++ qs)) (h' : Lexed qs')
    (hj : ∀ p, ps.getLast? = some p → p.Joins (textOf qs')) : Lexed (ps ++ qs') :=
  lexed_append.mpr ⟨(lexed_append.mp h).1.rejoin hj, h'⟩

lemma Lexed.left {ps qs : List Piece} (h : Lexed (ps ++ qs)) : Lexed ps :=
  (lexed_append.mp h).1.lexed

lemma Lexed.part {ps qs : List Piece} (h : Lexed qs) (hi : ps <:+: qs) : Lexed ps := by
  obtain ⟨a, b, rfl⟩ := hi
  rw [List.append_assoc] at h
  exact h.right.left

/-- Characters that begin no comment and no string. -/
def Plain (c : Char) : Prop := c ≠ '/' ∧ c ≠ '"' ∧ c ≠ '#'

instance (c : Char) : Decidable (Plain c) := inferInstanceAs (Decidable (_ ∧ _ ∧ _))

lemma literalLength?_of_plain {c : Char} (t : Text) (h : Plain c) :
    literalLength? (c :: t) = .ok none := by
  obtain ⟨h₁, h₂, h₃⟩ := h
  rw [literalLength?_eq_none, opening?_of_ne _ h₁, stringOpening?_eq,
    show hashRun (c :: t) = 0 by simp [hashRun, h₃]]
  simp [h₂]

lemma literal_head_ne {l s : Text} {c : Char} (h : literalLength? (l ++ s) = .ok (some l.length))
    (hc : Plain c) : (l ++ s).head? ≠ some c := by
  cases l with
  | nil => simpa using literalLength?_bounds h
  | cons d l =>
    intro he
    obtain rfl : d = c := by simpa using he
    rw [List.cons_append, literalLength?_of_plain _ hc] at h
    simp at h

lemma lexedBefore_chars {w : Text} (hw : ∀ c ∈ w, Plain c) (z : Text) : LexedBefore z (chars w) := by
  induction w with
  | nil => trivial
  | cons c w ih =>
    exact ⟨literalLength?_of_plain _ (hw c List.mem_cons_self), ih fun d hd => hw d (List.mem_cons_of_mem _ hd)⟩

lemma LexedBefore.head_eq {z v : Text} {p q : Piece} {ps qs : List Piece} (hp : LexedBefore z (p :: ps))
    (hq : LexedBefore v (q :: qs)) (ht : p.text ++ (textOf ps ++ z) = q.text ++ (textOf qs ++ v)) : p = q := by
  cases p with
  | char c =>
    have hc := hp.1
    cases q with
    | char d => rw [(List.cons.inj ht).1]
    | literal m =>
      have hm := hq.1
      rw [← show _ = m ++ (textOf qs ++ v) from ht, Piece.text, List.singleton_append, hc] at hm
      simp at hm
  | literal l =>
    have hl := hp.1
    cases q with
    | char d =>
      have hd := hq.1
      rw [← List.singleton_append, ← show _ = [d] ++ (textOf qs ++ v) from ht, Piece.text, hl] at hd
      simp at hd
    | literal m =>
      have hm := hq.1
      rw [← show _ = m ++ (textOf qs ++ v) from ht, Piece.text, hl] at hm
      have hlen : l.length = m.length := by simpa using hm
      exact congrArg Piece.literal (List.append_inj ht hlen).1

/-- Of two ways to cut a text into pieces, each up to some place, one goes on where the other ends. -/
theorem LexedBefore.cut {z v : Text} {ps qs : List Piece} (hp : LexedBefore z ps) (hq : LexedBefore v qs)
    (ht : textOf ps ++ z = textOf qs ++ v) :
    (∃ rs, ps = qs ++ rs ∧ textOf rs ++ z = v) ∨ ∃ r rs, qs = ps ++ r :: rs ∧ textOf (r :: rs) ++ v = z := by
  induction qs generalizing ps with
  | nil => exact .inl ⟨ps, rfl, ht⟩
  | cons q qs ih =>
    cases ps with
    | nil => exact .inr ⟨q, qs, rfl, ht.symm⟩
    | cons p ps =>
      rw [textOf_cons, textOf_cons, List.append_assoc, List.append_assoc] at ht
      obtain rfl := hp.head_eq hq ht
      rcases ih hp.tail hq.tail (List.append_cancel_left ht) with ⟨rs, rfl, hr⟩ | ⟨r, rs, rfl, hr⟩
      · exact .inl ⟨rs, rfl, hr⟩
      · exact .inr ⟨r, rs, rfl, hr⟩

/-- A text is cut into pieces in one way only. -/
theorem LexedBefore.exists_append {z w : Text} {ps qs : List Piece} (hp : LexedBefore z ps)
    (hq : LexedBefore (w ++ z) qs) (ht : textOf ps = textOf qs ++ w) :
    ∃ rs, ps = qs ++ rs ∧ textOf rs = w := by
  rcases hp.cut hq (by rw [ht, List.append_assoc]) with ⟨rs, rfl, hr⟩ | ⟨r, rs, rfl, -⟩
  · exact ⟨rs, rfl, List.append_cancel_right hr⟩
  · have hne := (lexedBefore_append.mp hq).2.textOf_ne_nil (List.cons_ne_nil r rs)
    rw [textOf_append, List.append_assoc, List.self_eq_append_right] at ht
    exact absurd (List.append_eq_nil_iff.mp ht).1 hne

lemma Lexed.exists_chars {ps : List Piece} {w z : Text} (h : Lexed ps) (ht : textOf ps = w ++ z)
    (hw : ∀ c ∈ w, Plain c) : ∃ qs, ps = chars w ++ qs ∧ textOf qs = z :=
  (lexed_iff.mp h).exists_append (lexedBefore_chars hw _) (by rwa [textOf_chars])

lemma Lexed.exists_word {ps : List Piece} {w r : Text} {o : Char} (h : Lexed ps) (ht : textOf ps = w ++ o :: r)
    (hw : ∀ c ∈ w, Plain c) (ho : Plain o) : ∃ rs, ps = chars w ++ .char o :: rs ∧ textOf rs = r := by
  obtain ⟨rs, rfl, hr⟩ := h.exists_chars (w := w ++ [o]) (z := r) (by rw [ht]; simp) fun c hc => by
    rcases List.mem_append.mp hc with hc | hc
    · exact hw c hc
    · rwa [List.mem_singleton.mp hc]
  exact ⟨rs, by simp [chars], hr⟩

lemma Lexed.eq_of_textOf {ps qs : List Piece} (hp : Lexed ps) (hq : Lexed qs)
    (h : textOf ps = textOf qs) : ps = qs := by
  obtain ⟨rs, rfl, hr⟩ := (lexed_iff.mp hp).exists_append (w := []) (lexed_iff.mp hq) (by simpa using h)
  cases rs with
  | nil => exact List.append_nil _
  | cons r rs => exact absurd hr hp.right.textOf_ne_nil

def literalSpans : Nat → List Piece → List Span
  | _, [] => []
  | pos, .char _ :: ps => literalSpans (pos + 1) ps
  | pos, .literal l :: ps => ⟨pos, pos + l.length⟩ :: literalSpans (pos + l.length) ps

lemma literalSpans_append (pos : Nat) (a b : List Piece) :
    literalSpans pos (a ++ b) = literalSpans pos a ++ literalSpans (pos + (textOf a).length) b := by
  induction a generalizing pos with
  | nil => rfl
  | cons p a ih =>
    rw [List.cons_append, textOf_cons, List.length_append, ← Nat.add_assoc]
    cases p with
    | char c => exact ih (pos + 1)
    | literal l => exact congrArg _ (ih (pos + l.length))

lemma mem_literalSpans {ps : List Piece} {pos : Nat} {span : Span} :
    span ∈ literalSpans pos ps ↔ ∃ a l b, ps = a ++ .literal l :: b ∧
      span = ⟨pos + (textOf a).length, pos + (textOf a).length + l.length⟩ := by
  induction ps generalizing pos with
  | nil => simp [literalSpans]
  | cons p ps ih =>
    have onward : span ∈ literalSpans (pos + p.text.length) ps ↔ ∃ a l b, ps = a ++ .literal l :: b ∧
        span = ⟨pos + (textOf (p :: a)).length, pos + (textOf (p :: a)).length + l.length⟩ := by
      simp only [ih, textOf_cons, List.length_append, Nat.add_assoc]
    cases p with
    | char c =>
      rw [literalSpans]
      refine onward.trans ⟨?_, ?_⟩
      · rintro ⟨a, l, b, rfl, hs⟩
        exact ⟨.char c :: a, l, b, rfl, hs⟩
      · rintro ⟨a, l, b, hab, hs⟩
        cases a with
        | nil => simp at hab
        | cons q a =>
          obtain ⟨rfl, rfl⟩ := List.cons.inj hab
          exact ⟨a, l, b, rfl, hs⟩
    | literal m =>
      rw [literalSpans, List.mem_cons]
      constructor
      · rintro (rfl | hs)
        · exact ⟨[], m, ps, rfl, by simp⟩
        · obtain ⟨a, l, b, rfl, hs'⟩ := onward.mp hs
          exact ⟨.literal m :: a, l, b, rfl, hs'⟩
      · rintro ⟨a, l, b, hab, hs⟩
        cases a with
        | nil =>
          obtain ⟨hp, rfl⟩ := List.cons.inj hab
          cases hp
          exact .inl (by simpa using hs)
        | cons q a =>
          obtain ⟨rfl, rfl⟩ := List.cons.inj hab
          exact .inr (onward.mpr ⟨a, l, b, rfl, hs⟩)

lemma literalSpansFrom_drop (skip pos : Nat) (t : Text) :
    literalSpansFrom skip pos t = literalSpansFrom 0 (pos + skip) (t.drop skip) := by
  induction skip generalizing pos t with
  | zero => rfl
  | succ skip ih =>
    cases t with
    | nil => rfl
    | cons c t =>
      rw [literalSpansFrom, ih, List.drop_succ_cons]
      congr 1
      omega

lemma literalSpansFrom_literal {pos : Nat} {l t : Text}
    (h : literalLength? (l ++ t) = .ok (some l.length)) :
    literalSpansFrom 0 pos (l ++ t) =
      (literalSpansFrom 0 (pos + l.length) t).map (⟨pos, pos + l.length⟩ :: ·) := by
  cases l with
  | nil => simpa using literalLength?_bounds h
  | cons c l =>
    rw [List.cons_append] at h ⊢
    rw [literalSpansFrom, h]
    simp only [List.length_cons, Nat.add_sub_cancel]
    rw [literalSpansFrom_drop, List.drop_left, Nat.add_right_comm, Nat.add_assoc]

lemma literalSpansFrom_textOf {ps : List Piece} (pos : Nat) (h : Lexed ps) :
    literalSpansFrom 0 pos (textOf ps) = .ok (literalSpans pos ps) := by
  induction h generalizing pos with
  | nil => rfl
  | @char c ps hc _ ih =>
    rw [textOf_cons, Piece.text, List.cons_append, List.nil_append, literalSpansFrom, hc]
    exact ih (pos + 1)
  | @literal l ps hl _ ih =>
    rw [textOf_cons, Piece.text, literalSpansFrom_literal hl, ih (pos + l.length)]
    rfl

lemma drop_textOf (ps qs : List Piece) : (textOf (ps ++ qs)).drop (textOf ps).length = textOf qs := by
  rw [textOf_append, List.drop_left]

lemma ofText_textOf {ps : List Piece} (h : Lexed ps) :
    LiteralIndex.ofText (textOf ps) = .ok ⟨(literalSpans 0 ps).toArray⟩ := by
  rw [LiteralIndex.ofText, literalSpansFrom_textOf 0 h]
  rfl

/-- A text whose literals can all be read to their ends is made up of pieces. -/
theorem exists_lexed {pos : Nat} {t : Text} {spans : List Span}
    (h : literalSpansFrom 0 pos t = .ok spans) : ∃ ps, Lexed ps ∧ textOf ps = t := by
  induction hk : t.length using Nat.strongRecOn generalizing t pos spans with
  | ind k ih =>
    cases t with
    | nil => exact ⟨[], .nil, rfl⟩
    | cons c t =>
      rw [List.length_cons] at hk
      cases hl : literalLength? (c :: t) with
      | error e =>
        rw [literalSpansFrom, hl] at h
        simp at h
      | ok o =>
        cases o with
        | none =>
          rw [literalSpansFrom, hl] at h
          obtain ⟨ps, hps, rfl⟩ := ih t.length (by omega) h rfl
          exact ⟨.char c :: ps, .char hl hps, rfl⟩
        | some n =>
          have hb := literalLength?_bounds hl
          obtain ⟨l, rest, ht, rfl⟩ : ∃ l rest, c :: t = l ++ rest ∧ l.length = n :=
            ⟨_, _, (List.take_append_drop n (c :: t)).symm, List.length_take_of_le hb.2⟩
          have hlen := congrArg List.length ht
          rw [List.length_cons, List.length_append] at hlen
          rw [ht] at hl h ⊢
          rw [literalSpansFrom_literal hl, map_eq_ok] at h
          obtain ⟨later, hlater, -⟩ := h
          obtain ⟨ps, hps, rfl⟩ := ih rest.length (by omega) hlater rfl
          exact ⟨.literal l :: ps, .literal hl hps, rfl⟩

end PackageInstaller.Manifest
