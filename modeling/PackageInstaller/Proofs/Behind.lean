import PackageInstaller.Proofs.Groups
import PackageInstaller.Proofs.Rows

/-! What stands behind an item of a list on the line where the item ends, and what becomes of it when the editor
puts an element on a line of its own after the item. -/

namespace PackageInstaller.Manifest

open Layout

variable {t x z : Text}

/-- Spaces, tabs and block comments, all on one line. -/
inductive Filler : Text → Prop
  | nil : Filler []
  | indent {c : Char} {g : Text} : isIndent c = true → Filler g → Filler (c :: g)
  | comment {m g : Text} : literalLength? m = .ok (some m.length) → ['/', '*'].isPrefixOf m = true → '\n' ∉ m →
    Filler g → Filler (m ++ g)

/-- Nothing, or a comment that the end of the line ends. -/
def Remark (c : Text) : Prop := '\n' ∉ c ∧ (c = [] ∨ ['/', '/'].isPrefixOf c = true)

lemma Filler.of_indent {w : Text} (hw : ∀ c ∈ w, isIndent c = true) : Filler w := by
  induction w with
  | nil => exact .nil
  | cons c w ih => exact .indent (hw c List.mem_cons_self) (ih fun d hd => hw d (List.mem_cons_of_mem _ hd))

lemma Filler.cases {g : Text} (h : Filler g) : (∀ c ∈ g, isIndent c = true) ∨
    ∃ w m, g = w ++ '/' :: '*' :: m ∧ ∀ c ∈ w, isIndent c = true := by
  induction h with
  | nil => exact .inl (by simp)
  | @indent c g hc _ ih =>
    rcases ih with hg | ⟨w, m, rfl, hw⟩
    · exact .inl (List.forall_mem_cons.mpr ⟨hc, hg⟩)
    · exact .inr ⟨c :: w, m, rfl, List.forall_mem_cons.mpr ⟨hc, hw⟩⟩
  | @comment m g _ hm =>
    obtain ⟨m, rfl⟩ := List.isPrefixOf_iff_prefix.mp hm
    exact .inr ⟨[], m ++ g, rfl, by simp⟩

lemma Filler.exists_pieces {g : Text} (h : Filler g) :
    ∃ f, textOf f = g ∧ Trivial f ∧ ∀ v, LexedBefore v f := by
  induction h with
  | nil => exact ⟨[], rfl, trivial_nil, fun _ => trivial⟩
  | @indent c g hc _ ih =>
    obtain ⟨f, rfl, hf, hl⟩ := ih
    have hblank := isBlank_of_isIndent hc
    refine ⟨.char c :: f, rfl, List.forall_mem_cons.mpr ⟨hblank, hf⟩, fun v => ⟨?_, hl v⟩⟩
    exact literalLength?_of_plain _ (ordinary_of_isBlank hblank).1
  | @comment m g hm hblock _ _ ih =>
    obtain ⟨f, rfl, hf, hl⟩ := ih
    have hslash : m.head? = some '/' := by
      obtain ⟨m, rfl⟩ := List.isPrefixOf_iff_prefix.mp hblock
      rfl
    refine ⟨.literal m :: f, rfl, List.forall_mem_cons.mpr ⟨decide_eq_true hslash, hf⟩, fun v => ⟨?_, hl v⟩⟩
    refine @literalLength?_congr m [] _ (by rwa [List.append_nil]) (fun hn => absurd hslash hn) fun hline => ?_
    obtain ⟨m, rfl⟩ := List.isPrefixOf_iff_prefix.mp hblock
    simp at hline

lemma Remark.exists_pieces {c : Text} (h : Remark c) : ∃ f, textOf f = c ∧ Trivial f ∧
    ∀ v, v = [] ∨ v.head? = some '\n' → LexedBefore v f := by
  obtain ⟨hn, rfl | hc⟩ := h
  · exact ⟨[], rfl, trivial_nil, fun _ _ => trivial⟩
  · refine ⟨[.literal c], by simp [Piece.text], ?_, fun v hv => ⟨?_, trivial⟩⟩
    · obtain ⟨c, rfl⟩ := List.isPrefixOf_iff_prefix.mp hc
      simp [Trivial, Piece.isTrivia]
    · have hlen := lineCommentLength_of_notMem hn hv
      obtain ⟨c, rfl⟩ := List.isPrefixOf_iff_prefix.mp hc
      simp only [textOf_nil, List.nil_append]
      simp only [List.cons_append, List.nil_append] at hlen ⊢
      rw [literalLength?, opening?_slash, if_pos rfl]
      simp only [hlen]

/-- A line with nothing to see but comments ends before the character `k` that is to follow. -/
lemma exists_newline {k : Char} {y : List Piece} {g c s : Text} (hl : LexedBefore (k :: z) y)
    (hk : Text.isBlank k = false ∧ k ≠ '/') (hg : Filler g) (hc : Remark c) (hs : s = [] ∨ s.head? = some '\n')
    (ht : textOf y ++ k :: z = g ++ (c ++ s)) : ∃ y', textOf y = g ++ (c ++ '\n' :: y') := by
  obtain ⟨f, rfl, hf, hfl⟩ := hg.exists_pieces
  obtain ⟨r, rfl, hr, hrl⟩ := hc.exists_pieces
  have hall : LexedBefore s (f ++ r) := lexedBefore_append.mpr ⟨hfl _, hrl s hs⟩
  rcases hl.cut hall (by rw [ht]; simp) with ⟨y', rfl, hy'⟩ | ⟨p, ps, hp, htext⟩
  -- the group goes on after the comments, and so does the line until it ends
  · cases hy : textOf y' with
    | nil =>
      rw [hy] at hy'
      rcases hs with rfl | hs
      · simp at hy'
      · obtain rfl : k = '\n' := by simpa [← hy'] using hs
        exact absurd hk.1 (by decide)
    | cons d y'' =>
      rw [hy] at hy'
      obtain rfl : d = '\n' := by
        rcases hs with rfl | hs
        · simp at hy'
        · simpa [← hy'] using hs
      exact ⟨y'', by simp [hy]⟩
  -- otherwise `k` begins one of them
  · have htriv : p.isTrivia = true := hf.append hr p (by rw [hp]; simp)
    rw [textOf_cons] at htext
    cases p with
    | char d =>
      obtain rfl : d = k := (List.cons.inj htext).1
      exact absurd htriv (by simp [hk.1])
    | literal m =>
      obtain ⟨m, rfl⟩ := List.head?_eq_some_iff.mp (of_decide_eq_true htriv)
      exact absurd (List.cons.inj htext).1.symm hk.2

namespace Argument

/-- The offset past an item and its separator. -/
def past (item : Argument) : Nat := (item.comma.map (· + 1)).getD item.span.stop

/-- The comma that an item has, or gains when another one is put after it. -/
def mark (item : Argument) : Text := if item.comma.isSome then [','] else []

def gain (item : Argument) : Text := if item.comma.isSome then [] else [',']

end Argument

/-- The item ends where `a` does. After it `d` goes on to just past its separator, and is empty if there is none;
from there `y` goes on to the closing bracket. -/
structure Behind (t : Text) (args : ArgumentList) (item : Argument) (a d : Text) (y : List Piece) (k : Char)
    (z : Text) : Prop where
  text : t = a ++ (d ++ (textOf y ++ k :: z))
  stop : item.span.stop = a.length
  past : item.past = (a ++ d).length
  closer : args.closer = (a ++ d).length + (textOf y).length
  lexed : LexedBefore (k :: z) y
  bracket : isCloser k = true
  separator : item.comma = none ∧ d = [] ∨ ∃ g, LexedBefore (',' :: (textOf y ++ k :: z)) g ∧
    item.comma = some (a.length + (textOf g).length) ∧ d = textOf g ++ [',']

variable {args : ArgumentList} {item : Argument} {n opener : Nat}

lemma exists_segments (h : splitArguments t opener = .ok args) (hi : args.items[n]? = some item) :
    ∃ u o k b z us s v, Grouped t u o k b z ∧ args.closer = u.length + (textOf b).length + 1 ∧
      segments b = us ++ s :: v ∧ core s ≠ [] ∧
      item = argumentAt (u.length + 1 + (textOf (leading us)).length + (textOf (lead s)).length) (core s)
        (if v = [] then none else some (u.length + 1 + (textOf (leading us)).length + (textOf s).length)) := by
  obtain ⟨u, o, k, b, z, hg, -, -, hc, hitems⟩ := splitArguments_iff.mp h
  obtain ⟨hn, rfl⟩ := List.getElem?_eq_some_iff.mp hi
  have hsplit : args.items = args.items.take n ++ args.items[n] :: args.items.drop (n + 1) := by simp
  rw [hsplit] at hitems
  obtain ⟨us, s, v, hseg, -, hs, hitem⟩ := argumentsFrom_split hitems
  exact ⟨u, o, k, b, z, us, s, v, hg, hc, hseg, hs, hitem⟩

lemma exists_after (h : splitArguments t opener = .ok args) (hi : args.items[n]? = some item) :
    ∃ a r v k z, t = a ++ (textOf (r ++ following v) ++ k :: z) ∧ item.span.stop = a.length ∧
      args.closer = a.length + (textOf (r ++ following v)).length ∧ LexedBefore (k :: z) (r ++ following v) ∧
        isCloser k = true ∧ item.comma = if v = [] then none else some (a.length + (textOf r).length) := by
  obtain ⟨u, o, k, b, z, us, s, v, hg, hc, hseg, hs, rfl⟩ := exists_segments h hi
  obtain ⟨r, hr, -⟩ := exists_trail s
  have hb : b = (leading us ++ lead s ++ core s) ++ (r ++ following v) := by
    rw [← joined_segments b, hseg, joined_mid]
    conv_lhs => rw [hr]
    simp
  have hlen : u.length + 1 + (textOf (leading us)).length + (textOf (lead s)).length + (textOf (core s)).length =
      (u ++ o :: textOf (leading us ++ lead s ++ core s)).length := by
    simp only [textOf_append, List.length_append, List.length_cons]
    omega
  have htrail : (textOf s).length = (textOf (lead s)).length + (textOf (core s)).length + (textOf r).length := by
    conv_lhs => rw [hr]
    simp only [textOf_append, List.length_append]
  have hlex := hg.lexed
  rw [hb, lexedBefore_append] at hlex
  refine ⟨_, r, v, k, z, ?_, hlen, ?_, hlex.2, (isCloser_of_closerOf? hg.brackets).2.2, ?_⟩
  · rw [hg.text, hb]
    simp
  · rw [hc, hb, ← hlen]
    simp only [textOf_append, List.length_append]
    omega
  · simp only [argumentAt, ← hlen, htrail]
    congr 2
    omega

lemma exists_behind (h : splitArguments t opener = .ok args) (hi : args.items[n]? = some item) :
    ∃ a d y k z, Behind t args item a d y k z := by
  obtain ⟨a, r, v, k, z, rfl, hstop, hclose, hlex, hk, hcomma⟩ := exists_after h hi
  cases v with
  | nil =>
    refine ⟨a, [], r, k, z, ?_, hstop, ?_, ?_, ?_, hk, .inl ⟨hcomma, rfl⟩⟩
    · simp [following]
    · rw [Argument.past, hcomma, List.append_nil]
      exact hstop
    · simpa [following] using hclose
    · simpa [following] using hlex
  | cons s v =>
    have hfollow : following (s :: v) = comma :: (s ++ following v) := by simp [following]
    rw [if_neg (List.cons_ne_nil s v)] at hcomma
    rw [hfollow] at hclose hlex
    rw [lexedBefore_append] at hlex
    refine ⟨a, textOf r ++ [','], s ++ following v, k, z, ?_, hstop, ?_, ?_, hlex.2.tail, hk,
      .inr ⟨r, ?_, hcomma, rfl⟩⟩
    · rw [hfollow]
      simp [comma, Piece.text]
    · rw [Argument.past, hcomma]
      simp [Nat.add_assoc]
    · rw [hclose]
      simp [comma, Piece.text]
      omega
    · simpa [comma, Piece.text] using hlex.1

lemma exists_start (h : splitArguments t opener = .ok args) (hi : args.items[n]? = some item) :
    ∃ u v, t = u ++ v ∧ item.span.start = u.length ∧ ∀ c ∈ v.head?, isIndent c = false := by
  obtain ⟨u, o, k, b, z, us, s, v, hg, -, hseg, hs, rfl⟩ := exists_segments h hi
  obtain ⟨r, hr, -⟩ := exists_trail s
  obtain ⟨p, ps, hp⟩ := List.exists_cons_of_ne_nil hs
  have hb : b = (leading us ++ lead s) ++ p :: (ps ++ r ++ following v) := by
    rw [← joined_segments b, hseg, joined_mid]
    conv_lhs => rw [hr, hp]
    simp
  have hlex := hg.lexed
  rw [hb, lexedBefore_append] at hlex
  refine ⟨u ++ o :: textOf (leading us ++ lead s), textOf (p :: (ps ++ r ++ following v)) ++ k :: z, ?_, ?_, ?_⟩
  · rw [hg.text, hb]
    simp
  · simp [argumentAt]
    omega
  · intro c hc
    have hsolid := head_not_blank hlex.2 ((core_solid s).1 p (by rw [hp]; rfl)) hc
    by_contra hindent
    rw [isBlank_of_isIndent (Bool.of_not_eq_false hindent)] at hsolid
    exact absurd hsolid (by decide)

/-- In a list that spreads over lines the element comes on a line of its own, after the text `q` that stays on the
line of the item. -/
lemma Behind.insertAfterItem_eq {a d q s : Text} {y : List Piece} {k : Char} (h : Behind t args item a d y k z)
    (hm : isMultiline t args = true) (hq : textOf y ++ k :: z = q ++ s)
    (hpos : pastLineComment t item.past args.closer = (a ++ d ++ q).length) (x : Text) :
    insertAfterItem t args item x =
      a ++ (item.gain ++ d ++ q) ++ '\n' :: (lineIndent t item.span.start ++ x ++ item.mark ++ s) := by
  have htext : t = (a ++ d ++ q) ++ s := by rw [h.text, hq]; simp
  rw [Layout.insertAfterItem]
  simp only [if_pos hm]
  generalize lineIndent t item.span.start = w
  rcases h.separator with ⟨hnone, rfl⟩ | ⟨g, -, hsome, rfl⟩
  · simp only [Argument.past, hnone, Option.map_none, Option.getD_none] at hpos
    simp only [hnone, hpos, Argument.gain, Argument.mark]
    have htake : t.take item.span.stop = a := by rw [h.stop, h.text, List.take_left]
    have hslice : t.slice item.span.stop (a ++ [] ++ q).length = q := by
      rw [htext, h.stop, List.append_nil, List.append_assoc, List.length_append, slice_length]
    have hdrop : t.drop (a ++ [] ++ q).length = s := by rw [htext, List.drop_left]
    rw [htake, hslice, hdrop]
    simp
  · simp only [Argument.past, hsome, Option.map_some, Option.getD_some] at hpos
    simp only [hsome, hpos, Argument.gain, Argument.mark]
    rw [htext, insertAt_length]
    simp

/-- What stands between an item and a comment behind it: spaces, tabs, block comments, and the separator of the
item. -/
inductive Gap (item : Argument) : Text → Prop
  | bare {g : Text} : Filler g → Gap item g
  | separated {g g' : Text} : Filler g → item.comma = some (item.span.stop + g.length) → Filler g' →
    Gap item (g ++ ',' :: g')

/-- On the line where an item ends nothing follows it but spaces, tabs, its separator, if it has one, and a
comment. -/
inductive Ending (item : Argument) : Text → Prop
  | bare {w c : Text} : item.comma = none → (∀ d ∈ w, isIndent d = true) → Remark c → Ending item (w ++ c)
  | separated {w w' c : Text} : item.comma = some (item.span.stop + w.length) → (∀ d ∈ w, isIndent d = true) →
    (∀ d ∈ w', isIndent d = true) → Remark c → Ending item (w ++ ',' :: (w' ++ c))

/-- The line on which an item ends goes on in `r` as it does in `t`, but for a comma that the item gains. -/
def KeepsLine (t r : Text) (item : Argument) : Prop :=
  r.take item.span.stop = t.take item.span.stop ∧
    restOfLine r item.span.stop = item.gain ++ restOfLine t item.span.stop

lemma exists_restOfLine (t : Text) (pos : Nat) :
    ∃ s, t.drop pos = restOfLine t pos ++ s ∧ (s = [] ∨ s.head? = some '\n') := by
  refine ⟨(t.drop pos).dropWhile (· ≠ '\n'), (List.takeWhile_append_dropWhile ..).symm, ?_⟩
  have hhead := List.head?_dropWhile_not (fun c => decide (c ≠ '\n')) (t.drop pos)
  cases hs : (t.drop pos).dropWhile (fun c => decide (c ≠ '\n')) with
  | nil => exact .inl rfl
  | cons c s =>
    rw [hs] at hhead
    exact .inr (by simpa using hhead)

lemma newline_notMem_restOfLine (t : Text) (pos : Nat) : '\n' ∉ restOfLine t pos := by
  intro hm
  simpa using List.mem_takeWhile_imp hm

lemma gain_notMem (item : Argument) : '\n' ∉ item.gain := by
  unfold Argument.gain
  split_ifs <;> decide

lemma mark_notMem (item : Argument) : '\n' ∉ item.mark := by
  unfold Argument.mark
  split_ifs <;> decide

namespace Behind

variable {a d g c s : Text} {y : List Piece} {k : Char}

lemma drop_stop (h : Behind t args item a d y k z) : t.drop item.span.stop = d ++ (textOf y ++ k :: z) := by
  rw [h.stop, h.text, List.drop_left]

lemma closer_solid (h : Behind t args item a d y k z) : Text.isBlank k = false ∧ k ≠ '/' := by
  rcases isCloser_cases h.bracket with rfl | rfl | rfl <;> decide

lemma eq_nil (h : Behind t args item a d y k z) (hnone : item.comma = none) : d = [] := by
  rcases h.separator with ⟨-, rfl⟩ | ⟨g, -, hsome, -⟩
  · rfl
  · simp [hnone] at hsome

lemma gain_eq_nil (h : Behind t args item a d y k z) (hd : d ≠ []) : item.gain = [] := by
  rcases h.separator with ⟨-, rfl⟩ | ⟨g, -, hsome, -⟩
  · exact absurd rfl hd
  · rw [Argument.gain, hsome]
    rfl

lemma eq_of_comma (h : Behind t args item a d y k z) (hcomma : item.comma = some (item.span.stop + g.length))
    (htext : d ++ (textOf y ++ k :: z) = g ++ ',' :: s) : d = g ++ [','] ∧ textOf y ++ k :: z = s := by
  rcases h.separator with ⟨hnone, -⟩ | ⟨g', -, hsome, rfl⟩
  · simp [hnone] at hcomma
  · have hlen : (textOf g').length = g.length := by
      rw [hcomma, h.stop] at hsome
      have := Option.some.inj hsome
      omega
    rw [List.append_assoc, List.singleton_append] at htext
    obtain ⟨hg, htail⟩ := List.append_inj htext hlen
    exact ⟨by rw [hg], (List.cons.inj htail).2⟩

/-- A comment on the line of the item stands behind the separator, or in front of it if that is on a later line. -/
lemma remark_cases (h : Behind t args item a d y k z) (hrest : restOfLine t item.span.stop = g ++ c)
    (hg : Gap item g) (hc : Remark c) :
    (∃ g' y', g = d ++ g' ∧ Filler g' ∧ textOf y = g' ++ (c ++ '\n' :: y')) ∨
      ∃ d', d = g ++ (c ++ '\n' :: d') := by
  obtain ⟨s, htext, hs⟩ := exists_restOfLine t item.span.stop
  rw [h.drop_stop, hrest, List.append_assoc] at htext
  cases hg with
  | bare hg =>
    rcases h.separator with ⟨-, rfl⟩ | ⟨g₀, hl, -, rfl⟩
    · obtain ⟨y', hy⟩ := exists_newline h.lexed h.closer_solid hg hc hs htext
      exact .inl ⟨g, y', rfl, hg, hy⟩
    -- the separator has not come yet, and it cannot be part of the comment
    · rw [List.append_assoc, List.singleton_append] at htext
      obtain ⟨y', hy⟩ := exists_newline hl (by decide) hg hc hs htext
      exact .inr ⟨y' ++ [','], by simp [hy]⟩
  | separated hg hcomma hg' =>
    rw [List.append_assoc, List.cons_append] at htext
    obtain ⟨rfl, htail⟩ := h.eq_of_comma hcomma htext
    obtain ⟨y', hy⟩ := exists_newline h.lexed h.closer_solid hg' hc hs htail
    exact .inl ⟨_, y', by simp, hg', hy⟩

lemma past_comment {y' : Text} (h : Behind t args item a d y k z) (hy : textOf y = g ++ (c ++ '\n' :: y'))
    (hg : ∀ e ∈ g, isIndent e = true) (hc : ['/', '/'].isPrefixOf c = true) (hn : '\n' ∉ c) :
    pastLineComment t item.past args.closer = (a ++ d ++ (g ++ c)).length := by
  have htext : t = (a ++ d) ++ (g ++ (c ++ '\n' :: (y' ++ k :: z))) := by
    rw [h.text, hy]
    simp
  rw [h.past, htext]
  refine pastLineComment_comment hg hc hn ?_
  rw [h.closer, hy]
  simp
  omega

lemma past_other {s : Text} (h : Behind t args item a d y k z) (hy : textOf y = g ++ s)
    (hg : ∀ e ∈ g, isIndent e = true) (hs : ∀ e ∈ (s ++ k :: z).head?, isIndent e = false)
    (hc : ['/', '/'].isPrefixOf (s ++ k :: z) = false) :
    pastLineComment t item.past args.closer = (a ++ d ++ []).length := by
  have htext : t = (a ++ d) ++ (g ++ (s ++ k :: z)) := by
    rw [h.text, hy]
    simp
  rw [List.append_nil, h.past, htext]
  refine pastLineComment_other hg hs hc ?_
  rw [h.closer, hy]
  simp
  omega

lemma keepsLine_iff {e s : Text} (h : Behind t args item a d y k z) (he : '\n' ∉ e) :
    KeepsLine t (a ++ e ++ '\n' :: s) item ↔ e = item.gain ++ restOfLine t item.span.stop := by
  have htake : t.take item.span.stop = a := by rw [h.stop, h.text, List.take_left]
  rw [KeepsLine, htake, h.stop, List.append_assoc, List.take_left, restOfLine_length he]
  exact and_iff_right rfl

lemma keepsLine_of_indent {y' : Text} (h : Behind t args item a d y k z) (hm : isMultiline t args = true)
    (hy : textOf y = g ++ (c ++ '\n' :: y')) (hg : ∀ e ∈ g, isIndent e = true)
    (hc : ['/', '/'].isPrefixOf c = true) (hcn : '\n' ∉ c)
    (hrest : restOfLine t item.span.stop = d ++ g ++ c) (x : Text) :
    KeepsLine t (insertAfterItem t args item x) item := by
  have hbehind : textOf y ++ k :: z = (g ++ c) ++ '\n' :: (y' ++ k :: z) := by
    rw [hy]
    simp
  have hstays : '\n' ∉ item.gain ++ d ++ (g ++ c) := by
    have hn := newline_notMem_restOfLine t item.span.stop
    rw [hrest] at hn
    simpa using ⟨gain_notMem item, by simpa using hn⟩
  rw [h.insertAfterItem_eq hm hbehind (h.past_comment hy hg hc hcn) x, h.keepsLine_iff hstays, hrest]
  simp

lemma insertAfterItem_block {w m : Text} (h : Behind t args item a d y k z) (hm : isMultiline t args = true)
    (hy : textOf y = w ++ ('/' :: '*' :: m)) (hw : ∀ e ∈ w, isIndent e = true) (x : Text) :
    insertAfterItem t args item x = a ++ (item.gain ++ d) ++ '\n' ::
      (lineIndent t item.span.start ++ x ++ item.mark ++ (textOf y ++ k :: z)) := by
  -- behind spaces and tabs stands the block comment, so the line comment after it is not passed over
  have hpos := h.past_other hy hw (by simp; decide) rfl
  rw [h.insertAfterItem_eq hm (List.nil_append _).symm hpos x, List.append_nil]

lemma not_keepsLine {e s : Text} (h : Behind t args item a d y k z) (hd : '\n' ∉ item.gain ++ d) (he : e ≠ [])
    (hrest : restOfLine t item.span.stop = d ++ e) : ¬KeepsLine t (a ++ (item.gain ++ d) ++ '\n' :: s) item := by
  rw [h.keepsLine_iff hd, hrest]
  intro heq
  have hlen := congrArg List.length heq
  have hpos := List.length_pos_of_ne_nil he
  simp only [List.length_append] at hlen
  omega

lemma moves_comment {w m y' : Text} (h : Behind t args item a d y k z) (hm : isMultiline t args = true)
    (hg : g = w ++ ('/' :: '*' :: m)) (hw : ∀ e ∈ w, isIndent e = true) (hc : c ≠ [])
    (hy : textOf y = g ++ (c ++ '\n' :: y')) (hrest : restOfLine t item.span.stop = d ++ g ++ c) (hx : '\n' ∉ x) :
    ¬KeepsLine t (insertAfterItem t args item x) item ∧ ∃ pos, item.span.stop < pos ∧
      restOfLine (insertAfterItem t args item x) pos = x ++ item.mark ++ restOfLine t item.past := by
  have hn := newline_notMem_restOfLine t item.span.stop
  rw [hrest] at hn
  simp only [List.mem_append, not_or] at hn
  obtain ⟨⟨hnd, hng⟩, hnc⟩ := hn
  have hbehind : textOf y ++ k :: z = g ++ c ++ '\n' :: (y' ++ k :: z) := by
    rw [hy]
    simp
  have hpast : restOfLine t item.past = g ++ c := by
    have hkept : '\n' ∉ g ++ c := by simpa using ⟨hng, hnc⟩
    rw [h.past, h.text, hbehind, ← List.append_assoc a, restOfLine_length hkept]
  have hblock : textOf y = w ++ ('/' :: '*' :: (m ++ (c ++ '\n' :: y'))) := by
    rw [hy, hg]
    simp
  rw [h.insertAfterItem_block hm hblock hw x, hbehind, hpast]
  refine ⟨h.not_keepsLine ?_ (List.append_ne_nil_of_right_ne_nil g hc) (by rw [hrest, List.append_assoc]),
    (a ++ (item.gain ++ d) ++ '\n' :: lineIndent t item.span.start).length, ?_, ?_⟩
  · simpa using ⟨gain_notMem item, hnd⟩
  · rw [h.stop]
    simp only [List.length_append, List.length_cons]
    omega
  · have hline : '\n' ∉ x ++ item.mark ++ (g ++ c) := by simpa using ⟨hx, mark_notMem item, hng, hnc⟩
    have hsplit : a ++ (item.gain ++ d) ++ '\n' :: (lineIndent t item.span.start ++ x ++ item.mark ++
        (g ++ c ++ '\n' :: (y' ++ k :: z))) = (a ++ (item.gain ++ d) ++ '\n' :: lineIndent t item.span.start) ++
          (x ++ item.mark ++ (g ++ c) ++ '\n' :: (y' ++ k :: z)) := by
      simp
    rw [hsplit, restOfLine_length hline]

lemma keepsLine_of_separator {d' : Text} (h : Behind t args item a d y k z) (hm : isMultiline t args = true)
    (hd : d = g ++ c ++ '\n' :: d') (hrest : restOfLine t item.span.stop = g ++ c) (x : Text) :
    KeepsLine t (insertAfterItem t args item x) item := by
  obtain ⟨q, r, rfl, -, hpos⟩ := pastLineComment_textOf (a ++ d) h.lexed h.bracket
  rw [← h.closer, ← h.past, List.append_assoc, ← h.text, h.past, ← List.length_append, ← h.past] at hpos
  have hbehind : textOf (q ++ r) ++ k :: z = textOf q ++ (textOf r ++ k :: z) := by
    rw [textOf_append, List.append_assoc]
  have hgain : item.gain = [] := h.gain_eq_nil (by rw [hd]; simp)
  have hsplit (s : Text) :
      a ++ (item.gain ++ d ++ textOf q) ++ s = a ++ (g ++ c) ++ '\n' :: (d' ++ textOf q ++ s) := by
    rw [hgain, hd]
    simp
  rw [h.insertAfterItem_eq hm hbehind hpos x, hsplit,
    h.keepsLine_iff (hrest ▸ newline_notMem_restOfLine t item.span.stop), hgain, hrest, List.nil_append]

lemma exists_remark {e : Text} (h : Behind t args item a d y k z) (he : Ending item e)
    (hrest : restOfLine t item.span.stop = e) : ∃ w c y', (∀ b ∈ w, isIndent b = true) ∧
      Remark c ∧ e = d ++ (w ++ c) ∧ textOf y = w ++ (c ++ '\n' :: y') := by
  obtain ⟨s, htext, hs⟩ := exists_restOfLine t item.span.stop
  rw [h.drop_stop, hrest] at htext
  cases he with
  | @bare w c hnone hw hc =>
    obtain rfl : d = [] := h.eq_nil hnone
    rw [List.append_assoc] at htext
    obtain ⟨y', hy⟩ := exists_newline h.lexed h.closer_solid (.of_indent hw) hc hs htext
    exact ⟨w, c, y', hw, hc, rfl, hy⟩
  | @separated w w' c hcomma hw hw' hc =>
    rw [List.append_assoc, List.cons_append, List.append_assoc] at htext
    obtain ⟨rfl, htail⟩ := h.eq_of_comma hcomma htext
    obtain ⟨y', hy⟩ := exists_newline h.lexed h.closer_solid (.of_indent hw') hc hs htail
    exact ⟨w', c, y', hw', hc, by simp, hy⟩

lemma exists_stays {w y' : Text} (h : Behind t args item a d y k z) (hw : ∀ b ∈ w, isIndent b = true)
    (hc : Remark c) (hy : textOf y = w ++ (c ++ '\n' :: y')) :
    ∃ q v, w ++ c = q ++ v ∧ (∀ b ∈ v, isIndent b = true) ∧
      pastLineComment t item.past args.closer = (a ++ d ++ q).length := by
  obtain ⟨hn, rfl | hc⟩ := hc
  · exact ⟨[], w, by simp, hw, h.past_other hy hw (by simp; decide) rfl⟩
  · exact ⟨w ++ c, [], by simp, by simp, h.past_comment hy hw hc hn⟩

end Behind

end PackageInstaller.Manifest
