import PackageInstaller.Proofs.Faults
import PackageInstaller.Proofs.Groups

/-! Bracket groups as recursive descent reads them, and that the scanner, which keeps a stack of the closers it
waits for, finds the same ones. -/

namespace PackageInstaller.Manifest

/-- From `i` to `j` there are whole literals, whole groups, and characters that are no brackets. -/
inductive Level (t : Text) : Nat → Nat → Prop
  | refl (i : Nat) : Level t i i
  | literal {i e j : Nat} : skipLiteral? t i = .ok (some e) → Level t e j → Level t i j
  | group {i c j : Nat} {o k : Char} : skipLiteral? t i = .ok none → t[i]? = some o → closerOf? o = some k →
    Level t (i + 1) c → t[c]? = some k → Level t (c + 1) j → Level t i j
  | char {i j : Nat} {c : Char} : skipLiteral? t i = .ok none → t[i]? = some c → Inner c → Level t (i + 1) j →
    Level t i j

/-- The bracket at `i` opens a group that the bracket at `c` closes. -/
def Matched (t : Text) (i c : Nat) : Prop :=
  ∃ o k, t[i]? = some o ∧ closerOf? o = some k ∧ Level t (i + 1) c ∧ t[c]? = some k

/-- A scan from `i` comes to `j`: it passes literals whole, and all else one character after the other. -/
inductive Reaches (t : Text) : Nat → Nat → Prop
  | refl (i : Nat) : Reaches t i i
  | literal {i e j : Nat} : skipLiteral? t i = .ok (some e) → Reaches t e j → Reaches t i j
  | char {i j : Nat} {c : Char} : skipLiteral? t i = .ok none → t[i]? = some c → Reaches t (i + 1) j →
    Reaches t i j

/-- The text from `i` to `j` is cut into these pieces. -/
structure Between (t : Text) (i j : Nat) (ps : List Piece) : Prop where
  text : t.drop i = textOf ps ++ t.drop j
  stop : j = i + (textOf ps).length
  lexed : LexedBefore (t.drop j) ps

variable {t l : Text} {i j k e : Nat} {c : Char} {ps qs : List Piece}

lemma skipLiteral?_eq_some : skipLiteral? t i = .ok (some e) ↔
    ∃ n, literalLength? (t.drop i) = .ok (some n) ∧ e = i + n := by
  rw [skipLiteral?, Scan.from, mapError_eq_ok, map_eq_ok]
  constructor
  · rintro ⟨r, hr, he⟩
    obtain ⟨n, rfl, rfl⟩ := Option.map_eq_some_iff.mp he
    exact ⟨n, hr, rfl⟩
  · rintro ⟨n, hn, rfl⟩
    exact ⟨some n, hn, rfl⟩

lemma skipLiteral?_eq_none : skipLiteral? t i = .ok none ↔ literalLength? (t.drop i) = .ok none := by
  rw [skipLiteral?, Scan.from, mapError_eq_ok, map_eq_ok]
  constructor
  · rintro ⟨r, hr, he⟩
    rwa [Option.map_eq_none_iff.mp he] at hr
  · exact fun h => ⟨none, h, rfl⟩

lemma drop_eq_cons : t[i]? = some c ↔ t.drop i = c :: t.drop (i + 1) := by
  rw [← List.head?_drop, ← List.tail_drop]
  cases t.drop i <;> simp

lemma skipLiteral?_plain (hc : t[i]? = some c) (h : Plain c) : skipLiteral? t i = .ok none :=
  skipLiteral?_eq_none.mpr (drop_eq_cons.mp hc ▸ literalLength?_of_plain _ h)

namespace Between

lemma nil (t : Text) (i : Nat) : Between t i i [] := ⟨rfl, rfl, trivial⟩

lemma append (h : Between t i j ps) (h' : Between t j k qs) : Between t i k (ps ++ qs) where
  text := by rw [h.text, h'.text, textOf_append, List.append_assoc]
  stop := by rw [h'.stop, h.stop, textOf_append, List.length_append, Nat.add_assoc]
  lexed := lexedBefore_append.mpr ⟨h'.text ▸ h.lexed, h'.lexed⟩

lemma split (h : Between t i k (ps ++ qs)) : ∃ j, Between t i j ps ∧ Between t j k qs := by
  obtain ⟨htext, hstop, hlex⟩ := h
  rw [textOf_append, List.append_assoc] at htext
  rw [textOf_append, List.length_append, ← Nat.add_assoc] at hstop
  obtain ⟨hps, hqs⟩ := lexedBefore_append.mp hlex
  have hdrop : t.drop (i + (textOf ps).length) = textOf qs ++ t.drop k := by
    rw [← List.drop_drop, htext, List.drop_left]
  exact ⟨i + (textOf ps).length, ⟨hdrop ▸ htext, rfl, hdrop ▸ hps⟩, hdrop, hstop, hqs⟩

lemma split_cons {p : Piece} (h : Between t i k (p :: ps)) : ∃ j, Between t i j [p] ∧ Between t j k ps :=
  split h

lemma literal (h : skipLiteral? t i = .ok (some e)) : ∃ l, Between t i e [.literal l] := by
  obtain ⟨n, hn, rfl⟩ := skipLiteral?_eq_some.mp h
  have hlen : ((t.drop i).take n).length = n := List.length_take_of_le (literalLength?_bounds hn).2
  have htext : (t.drop i).take n ++ t.drop (i + n) = t.drop i := by
    rw [← List.drop_drop, List.take_append_drop]
  refine ⟨(t.drop i).take n, ?_, ?_, ?_, trivial⟩
  · rw [textOf_cons, textOf_nil, List.append_nil, Piece.text, htext]
  · rw [textOf_cons, textOf_nil, List.append_nil, Piece.text, hlen]
  · rw [textOf_nil, List.nil_append, htext, hlen]
    exact hn

lemma skip_literal (h : Between t i j [.literal l]) : skipLiteral? t i = .ok (some j) := by
  refine skipLiteral?_eq_some.mpr ⟨l.length, ?_, by simpa [Piece.text] using h.stop⟩
  have hlex := h.lexed.1
  rw [textOf_nil, List.nil_append] at hlex
  rw [h.text]
  simpa [Piece.text] using hlex

lemma char (h : skipLiteral? t i = .ok none) (hc : t[i]? = some c) : Between t i (i + 1) [.char c] := by
  have hdrop := drop_eq_cons.mp hc
  exact ⟨hdrop, rfl, by rw [skipLiteral?_eq_none, hdrop] at h; exact h, trivial⟩

lemma skip_char (h : Between t i j [.char c]) : skipLiteral? t i = .ok none ∧ t[i]? = some c ∧ j = i + 1 := by
  have htext : t.drop i = c :: t.drop j := h.text
  have hj : j = i + 1 := h.stop
  subst hj
  exact ⟨skipLiteral?_eq_none.mpr (htext ▸ h.lexed.1), drop_eq_cons.mpr htext, rfl⟩

lemma le (h : Between t i j ps) : i ≤ j := by
  rw [h.stop]
  exact Nat.le_add_right _ _

lemma cut (hp : Between t i j ps) (hq : Between t i k qs) :
    (∃ rs, ps = qs ++ rs ∧ Between t k j rs) ∨ ∃ rs, qs = ps ++ rs ∧ Between t j k rs := by
  have onward : ∀ {j k ps rs}, Between t i j ps → Between t i k (ps ++ rs) → Between t j k rs := by
    intro j k ps rs hp hq
    obtain ⟨j', hp', hrs⟩ := hq.split
    rwa [hp'.stop, ← hp.stop] at hrs
  rcases hp.lexed.cut hq.lexed (hp.text.symm.trans hq.text) with ⟨rs, rfl, -⟩ | ⟨r, rs, rfl, -⟩
  · exact .inl ⟨rs, rfl, onward hq hp⟩
  · exact .inr ⟨r :: rs, rfl, onward hp hq⟩

lemma unique (hp : Between t i j ps) (hq : Between t i j qs) : ps = qs := by
  have empty : ∀ {rs}, Between t j j rs → rs = [] := by
    intro rs h
    by_contra hn
    have := List.length_pos_iff.mpr (h.lexed.textOf_ne_nil hn)
    have := h.stop
    omega
  rcases hp.cut hq with ⟨rs, rfl, hrs⟩ | ⟨rs, rfl, hrs⟩ <;> simp [empty hrs]

lemma head {d : Char} (h : Between t i j ps) (hd : Plain d) (hi : t[i]? = some d)
    (hij : i ≠ j) : ∃ rest, ps = .char d :: rest ∧ Between t (i + 1) j rest := by
  cases ps with
  | nil => exact absurd h.stop.symm hij
  | cons p ps =>
    obtain ⟨e, hp, hps⟩ := h.split_cons
    cases p with
    | literal l =>
      have hskip := skipLiteral?_plain hi hd
      rw [hp.skip_literal] at hskip
      simp at hskip
    | char d' =>
      obtain ⟨-, hget, rfl⟩ := hp.skip_char
      obtain rfl : d' = d := Option.some.inj (hget.symm.trans hi)
      exact ⟨ps, rfl, hps⟩

lemma slice (h : Between t i j ps) : t.slice i (i + (textOf ps).length) = textOf ps := by
  rw [Text.slice, h.text, Nat.add_sub_cancel_left, List.take_left]

end Between

lemma reaches_iff : Reaches t i j ↔ ∃ ps, Between t i j ps := by
  constructor
  · intro h
    induction h with
    | refl i => exact ⟨[], .nil t i⟩
    | literal h _ ih =>
      obtain ⟨l, hl⟩ := Between.literal h
      obtain ⟨ps, hps⟩ := ih
      exact ⟨_, hl.append hps⟩
    | char h hc _ ih =>
      obtain ⟨ps, hps⟩ := ih
      exact ⟨_, (Between.char h hc).append hps⟩
  · rintro ⟨ps, h⟩
    induction ps generalizing i with
    | nil =>
      obtain rfl : j = i := h.stop
      exact .refl j
    | cons p ps ih =>
      obtain ⟨e, hp, hps⟩ := h.split_cons
      cases p with
      | literal l => exact .literal hp.skip_literal (ih hps)
      | char c =>
        obtain ⟨hn, hc, rfl⟩ := hp.skip_char
        exact .char hn hc (ih hps)

lemma Between.reaches (h : Between t i j ps) : Reaches t i j := reaches_iff.mpr ⟨ps, h⟩

lemma Reaches.le (h : Reaches t i j) : i ≤ j := by
  obtain ⟨ps, hps⟩ := reaches_iff.mp h
  exact hps.le

lemma Reaches.trans (h : Reaches t i j) (h' : Reaches t j k) : Reaches t i k := by
  induction h with
  | refl => exact h'
  | literal hskip _ ih => exact .literal hskip (ih h')
  | char hskip hc _ ih => exact .char hskip hc (ih h')

lemma Reaches.between {s : Nat} (hi : Reaches t s i) (hj : Reaches t s j) (hle : i ≤ j) :
    ∃ ps, Between t i j ps := by
  obtain ⟨ps, hps⟩ := reaches_iff.mp hi
  obtain ⟨qs, hqs⟩ := reaches_iff.mp hj
  rcases hqs.cut hps with ⟨rs, -, hrs⟩ | ⟨rs, -, hrs⟩
  · exact ⟨rs, hrs⟩
  · obtain rfl : i = j := Nat.le_antisymm hle hrs.le
    exact ⟨[], .nil t i⟩

lemma Between.opener {o k : Char} (hn : t[i]? = some o) (ho : closerOf? o = some k) :
    Between t i (i + 1) [.char o] :=
  .char (skipLiteral?_plain hn (plain_of_closerOf? ho).1) hn

lemma Between.closer {o k : Char} (hn : t[i]? = some k) (ho : closerOf? o = some k) :
    Between t i (i + 1) [.char k] :=
  .char (skipLiteral?_plain hn (plain_of_closerOf? ho).2) hn

/-- Where the descent stays on one level, the pieces bracket evenly. -/
theorem level_iff : Level t i j ↔ ∃ ps, Between t i j ps ∧ Balanced ps := by
  constructor
  · intro h
    induction h with
    | refl i => exact ⟨[], .nil t i, .nil⟩
    | literal h _ ih =>
      obtain ⟨l, hl⟩ := Between.literal h
      obtain ⟨ps, hps, hb⟩ := ih
      exact ⟨_, hl.append hps, hb⟩
    | group _ hi ho _ hc _ ihb ihr =>
      obtain ⟨b, hb, hbal⟩ := ihb
      obtain ⟨r, hr, hrest⟩ := ihr
      exact ⟨_, ((Between.opener hi ho).append (hb.append (.closer hc ho))).append hr,
        (hbal.group ho).append hrest⟩
    | char h hc hin _ ih =>
      obtain ⟨ps, hps, hb⟩ := ih
      exact ⟨_, (Between.char h hc).append hps, hb.cons_char hin⟩
  · rintro ⟨ps, h, hb⟩
    induction ps, hb using Balanced.induction generalizing i j with
    | nil =>
      obtain rfl : j = i := h.stop
      exact .refl j
    | literal l ps _ ih =>
      obtain ⟨e, hl, hps⟩ := h.split_cons
      exact .literal hl.skip_literal (ih hps)
    | char c ps hin _ ih =>
      obtain ⟨e, hc, hps⟩ := h.split_cons
      obtain ⟨hnone, hget, rfl⟩ := hc.skip_char
      exact .char hnone hget hin (ih hps)
    | group o k b rest ho _ _ ihb ihr =>
      obtain ⟨e, hc, hps⟩ := h.split_cons
      obtain ⟨hnone, hget, rfl⟩ := hc.skip_char
      obtain ⟨m, hbm, hps⟩ := hps.split
      obtain ⟨m', hk, hrest⟩ := hps.split_cons
      obtain ⟨-, hkget, rfl⟩ := hk.skip_char
      exact .group hnone hget ho (ihb hbm) hkget (ihr hrest)

lemma matched_iff : Matched t i j ↔ ∃ o k b, t[i]? = some o ∧ closerOf? o = some k ∧ Between t (i + 1) j b ∧
    Balanced b ∧ t[j]? = some k := by
  constructor
  · rintro ⟨o, k, hi, ho, hlevel, hj⟩
    obtain ⟨b, hb, hbal⟩ := level_iff.mp hlevel
    exact ⟨o, k, b, hi, ho, hb, hbal, hj⟩
  · rintro ⟨o, k, b, hi, ho, hb, hbal, hj⟩
    exact ⟨o, k, hi, ho, level_iff.mpr ⟨b, hb, hbal⟩, hj⟩

lemma Between.whole {o k : Char} {b : List Piece} (hi : t[i]? = some o) (ho : closerOf? o = some k)
    (h : Between t (i + 1) j b) (hj : t[j]? = some k) : Between t i (j + 1) (.char o :: (b ++ [.char k])) :=
  (Between.opener hi ho).append (h.append (.closer hj ho))

lemma Grouped.between {u z : Text} {o k : Char} {b : List Piece} (h : Grouped t u o k b z) :
    t[u.length]? = some o ∧ Between t (u.length + 1) (u.length + (textOf b).length + 1) b ∧
      t[u.length + (textOf b).length + 1]? = some k := by
  have hopen : t.drop u.length = o :: (textOf b ++ k :: z) := by rw [h.text, List.drop_left]
  have hinside : t.drop (u.length + 1) = textOf b ++ k :: z := by
    rw [← List.drop_drop, hopen, List.drop_succ_cons, List.drop_zero]
  have hclose : t.drop (u.length + (textOf b).length + 1) = k :: z := by
    rw [show u.length + (textOf b).length + 1 = u.length + 1 + (textOf b).length by omega, ← List.drop_drop,
      hinside, List.drop_left]
  refine ⟨?_, ⟨by rw [hinside, hclose], by omega, hclose ▸ h.lexed⟩, ?_⟩
  · rw [← List.head?_drop, hopen, List.head?_cons]
  · rw [← List.head?_drop, hclose, List.head?_cons]

lemma Between.grouped {o k : Char} {b : List Piece} (hi : t[i]? = some o) (ho : closerOf? o = some k)
    (h : Between t (i + 1) j b) (hb : Balanced b) (hj : t[j]? = some k) :
    Grouped t (t.take i) o k b (t.drop (j + 1)) ∧ (t.take i).length = i := by
  have hlt : i < t.length := (List.getElem?_eq_some_iff.mp hi).1
  refine ⟨⟨?_, ho, hb, drop_eq_cons.mp hj ▸ h.lexed⟩, List.length_take_of_le (Nat.le_of_lt hlt)⟩
  rw [← drop_eq_cons.mp hj, ← h.text, ← drop_eq_cons.mp hi, List.take_append_drop]

/-- The scanner's stack finds the closer that recursive descent finds. -/
theorem findClosing_eq_ok : findClosing t i = .ok j ↔ Matched t i j := by
  rw [matched_iff]
  constructor
  · intro h
    obtain ⟨u, o, k, b, z, hg, rfl⟩ := grouped_of_findClosing h
    obtain ⟨hi, hb, hj⟩ := hg.between
    obtain rfl : u.length + (textOf b).length + 1 = j := Except.ok.inj (hg.closes.symm.trans h)
    exact ⟨o, k, b, hi, hg.brackets, hb, hg.balanced, hj⟩
  · rintro ⟨o, k, b, hi, ho, hb, hbal, hj⟩
    obtain ⟨hg, hlen⟩ := Between.grouped hi ho hb hbal hj
    have h := hg.closes
    rw [hlen] at h
    rw [h, hb.stop]
    congr 1
    omega

/-- Groups that begin where one scan comes by lie one inside the other, or one after the other. -/
theorem Matched.apart {s d : Nat} (hi : Reaches t s i) (hj : Reaches t s j) (hlt : i < j) (hc : Matched t i e)
    (hd : Matched t j d) : e < j ∨ d < e := by
  obtain ⟨rs, hrs⟩ := hi.between hj (Nat.le_of_lt hlt)
  obtain ⟨o, k, b, hio, ho, hb, hbal, hek⟩ := matched_iff.mp hc
  obtain ⟨o', k', b', hjo, ho', hb', hbal', hdk⟩ := matched_iff.mp hd
  have hgroup := Between.whole hio ho hb hek
  have hreach := hrs.append (Between.whole hjo ho' hb' hdk)
  obtain ⟨r, rs, rfl⟩ : ∃ r rs', rs = r :: rs' := by
    refine List.exists_cons_of_ne_nil fun hnil => ?_
    have := hrs.stop
    rw [hnil] at this
    simp at this
    omega
  -- the pieces of both groups go on from one another
  obtain ⟨z, z', hz⟩ : ∃ z z', .char o :: (b ++ .char k :: z) = r :: (rs ++ .char o' :: (b' ++ .char k' :: z')) := by
    rcases hgroup.cut hreach with ⟨y, hy, -⟩ | ⟨y, hy, -⟩
    · exact ⟨[], y, by simpa using hy⟩
    · exact ⟨y, [], by simpa using hy.symm⟩
  obtain ⟨rfl, hrest⟩ := List.cons.inj hz
  have hj := hrs.stop
  have he := hb.stop
  have hd := hb'.stop
  rw [textOf_cons, Piece.text, List.length_append, List.length_singleton] at hj
  rcases group_within ho ho' hbal hbal' hrest with hin | ⟨m, rfl⟩
  · exact .inr (by omega)
  · rw [textOf_append, textOf_cons, Piece.text, List.length_append, List.length_append, List.length_singleton] at hj
    exact .inl (by omega)

/-- At an opening bracket the scanner answers with the offset at which recursive descent closes the group, and
with a fault of the text if it closes none. -/
theorem findClosing_iff_matched (t : Text) :
    (∀ i c, findClosing t i = .ok c ↔ Matched t i c) ∧
    (∀ i o k, t[i]? = some o → closerOf? o = some k →
      ((∃ e, findClosing t i = .error e ∧ e.isStructural = true) ↔ ¬∃ c, Matched t i c)) ∧
    (∀ i c d, Matched t i c → Matched t i d → c = d) ∧
    ∀ s i j c d, Reaches t s i → Reaches t s j → i < j → Matched t i c → Matched t j d → c < j ∨ d < c := by
  refine ⟨fun i c => findClosing_eq_ok, fun i o k hi ho => ?_, fun i c d hc hd => ?_, fun s i j c d => Matched.apart⟩
  · constructor
    · rintro ⟨e, he, -⟩ ⟨c, hc⟩
      rw [findClosing_eq_ok.mpr hc] at he
      simp at he
    · intro hno
      cases h : findClosing t i with
      | ok c => exact absurd ⟨c, findClosing_eq_ok.mp h⟩ hno
      | error e => exact ⟨e, rfl, findClosing_structural ho (drop_eq_cons.mp hi) e h⟩
  · exact Except.ok.inj ((findClosing_eq_ok.mpr hc).symm.trans (findClosing_eq_ok.mpr hd))

def listInList : Text := "([a],\")\")".toList

theorem matched_listInList :
    Matched listInList 0 8 ∧ Matched listInList 1 3 ∧ 3 < 8 ∧ ¬∃ c, Matched "([a)".toList 0 c := by
  obtain ⟨hiff, -, -, hapart⟩ := findClosing_iff_matched listInList
  have outer : Matched listInList 0 8 := (hiff 0 8).mp (by decide +kernel)
  have inner : Matched listInList 1 3 := (hiff 1 3).mp (by decide +kernel)
  have behind : Reaches listInList 0 1 := .char (c := '(') (by decide +kernel) (by decide +kernel) (.refl 1)
  have hin : 8 < 1 ∨ 3 < 8 := hapart 0 0 1 8 3 (.refl 0) behind (by decide) outer inner
  obtain ⟨-, herror, -, -⟩ := findClosing_iff_matched "([a)".toList
  exact ⟨outer, inner, hin.resolve_left (by decide), (herror 0 '(' ')' rfl rfl).mp ⟨_, rfl, rfl⟩⟩

end PackageInstaller.Manifest
