import PackageInstaller.Manifest.Layout
import PackageInstaller.Proofs.Insertion

/-! Where the editor puts an element, and on which line. Each way of adding to a list finds a slot among its
elements; only the one that begins a line of its own before the first element may miss it, for a comment. -/

namespace PackageInstaller.Manifest

namespace Layout

/-- The offset at which a text is put before the first item, and the blanks that go before the element. -/
def front (t : Text) (args : ArgumentList) (first : Argument) : Nat :=
  if isMultiline t args then lineStart t first.span.start else first.span.start

def margin (t : Text) (args : ArgumentList) (first : Argument) : Text :=
  if isMultiline t args then lineIndent t first.span.start else []

def gap (t : Text) (args : ArgumentList) : Text := if isMultiline t args then ['\n'] else [' ']

lemma prependToItem_eq (t : Text) (args : ArgumentList) (first : Argument) (element : Text) :
    prependToItem t args first element =
      insertAt t (front t args first) (margin t args first ++ element ++ ',' :: gap t args) := by
  rw [prependToItem, front, margin, gap]
  split_ifs <;> rfl

end Layout

open Layout

lemma isBlank_of_isIndent {c : Char} (h : isIndent c = true) : Text.isBlank c = true := by
  simp only [isIndent, Bool.or_eq_true, decide_eq_true_eq] at h
  rcases h with rfl | rfl <;> decide

lemma lineIndent_blank (t : Text) (pos : Nat) : ∀ c ∈ lineIndent t pos, Text.isBlank c = true :=
  fun _ hc => isBlank_of_isIndent (List.mem_takeWhile_imp hc)

lemma indentUnit_blank (t : Text) : ∀ c ∈ indentUnit t, Text.isBlank c = true := by
  unfold indentUnit
  split <;> decide

lemma margin_blank (t : Text) (args : ArgumentList) (first : Argument) :
    ∀ c ∈ margin t args first, Text.isBlank c = true := by
  unfold margin
  split_ifs
  · exact lineIndent_blank _ _
  · simp

lemma gap_blank (t : Text) (args : ArgumentList) : ∀ c ∈ gap t args, Text.isBlank c = true := by
  unfold gap
  split_ifs <;> decide

lemma nil_blank : ∀ c ∈ ([] : Text), Text.isBlank c = true := by simp

lemma newline_blank {w : Text} (h : ∀ c ∈ w, Text.isBlank c = true) :
    ∀ c ∈ '\n' :: w, Text.isBlank c = true := by
  intro c hc
  rcases List.mem_cons.mp hc with rfl | hc
  · decide
  · exact h c hc

lemma insertAt_length (u v piece : Text) : insertAt (u ++ v) u.length piece = u ++ piece ++ v := by
  rw [insertAt, List.take_left, List.drop_left]

lemma lineStart_length {u v w : Text} (hv : '\n' ∉ v) :
    lineStart (u ++ '\n' :: (v ++ w)) (u.length + 1 + v.length) = u.length + 1 := by
  have ht : (u ++ '\n' :: (v ++ w)).take (u.length + 1 + v.length) = u ++ '\n' :: v := by
    have : u ++ '\n' :: (v ++ w) = (u ++ '\n' :: v) ++ w := by simp
    rw [this, show u.length + 1 + v.length = (u ++ '\n' :: v).length by simp; omega, List.take_left]
  have hr : (u ++ '\n' :: v).reverse.takeWhile (· ≠ '\n') = v.reverse := by
    rw [List.reverse_append, List.reverse_cons, List.append_assoc, List.takeWhile_append_of_pos]
    · simp
    · intro c hc
      have hc : c ∈ v := List.mem_reverse.mp hc
      simpa using fun h : c = '\n' => hv (h ▸ hc)
  rw [lineStart, ht, hr]
  simp
  omega

lemma lineIndent_length {u v w : Text} (hv : '\n' ∉ v) :
    lineIndent (u ++ '\n' :: (v ++ w)) (u.length + 1 + v.length) = (v ++ w).takeWhile isIndent := by
  have hsplit : u ++ '\n' :: (v ++ w) = (u ++ ['\n']) ++ (v ++ w) := by simp
  rw [lineIndent, lineStart_length hv, hsplit, show u.length + 1 = (u ++ ['\n']).length by simp,
    List.drop_left]

variable {u z : Text} {d : List Piece} {o k : Char}

lemma indexFrom?_first {b l v : Text} {c : Char} {limit : Nat} (hc : c ∉ l) (hlimit : b.length + l.length < limit) :
    Text.indexFrom? (b ++ (l ++ c :: v)) c b.length limit = some (b.length + l.length) := by
  obtain ⟨n, hn⟩ : ∃ n, limit - b.length = l.length + (n + 1) := ⟨limit - b.length - l.length - 1, by omega⟩
  have hpart : Text.slice (b ++ (l ++ c :: v)) b.length limit = l ++ c :: v.take n := by
    rw [Text.slice, List.drop_left, hn, List.take_length_add_append, List.take_succ_cons]
  have hbefore : (l ++ c :: v.take n).takeWhile (· ≠ c) = l := by
    rw [List.takeWhile_append_of_pos fun d hd => by simpa using fun h : d = c => hc (h ▸ hd)]
    simp
  rw [Text.indexFrom?, hpart, hbefore]
  exact if_pos (by simp)

/-- A line comment at the head of a lexed text is its first piece, and the line goes on after it. -/
lemma exists_lineComment {y : List Piece} (hl : LexedBefore (k :: z) y) (hk : isCloser k = true)
    (hc : ['/', '/'].isPrefixOf (textOf y ++ k :: z) = true) :
    ∃ l y' t, y = .literal l :: y' ∧ ['/', '/'].isPrefixOf l = true ∧ '\n' ∉ l ∧
      textOf y' = '\n' :: t := by
  cases y with
  | nil =>
    rw [textOf_nil, List.nil_append] at hc
    rcases isCloser_cases hk with rfl | rfl | rfl <;> simp [List.isPrefixOf] at hc
  | cons p y =>
    rw [textOf_cons, List.append_assoc] at hc
    cases p with
    | char c =>
      have hn := hl.1
      rw [Piece.text, List.singleton_append] at hc
      obtain ⟨t, ht⟩ := List.isPrefixOf_iff_prefix.mp hc
      rw [← ht, literalLength?_eq_none] at hn
      simp [opening?_slash] at hn
    | literal l =>
      have hn : ['/', '/'].length ≤ l.length := (literalLength?_bounds hl.1).1
      rw [Piece.text, isPrefixOf_append _ hn] at hc
      obtain ⟨hnl, hnext⟩ := lineComment_ends hl.1 hc
      have hnext := hnext.resolve_left (by simp)
      cases hy : textOf y with
      | nil =>
        rw [hy] at hnext
        rcases isCloser_cases hk with rfl | rfl | rfl <;> simp at hnext
      | cons c t =>
        rw [hy] at hnext
        obtain rfl : c = '\n' := by simpa using hnext
        exact ⟨l, y, t, rfl, hc, hnl, hy⟩

lemma pastLineComment_textOf {y : List Piece} (b : Text) (hl : LexedBefore (k :: z) y)
    (hk : isCloser k = true) : ∃ g r, y = g ++ r ∧ Trivial g ∧
      pastLineComment (b ++ (textOf y ++ k :: z)) b.length (b.length + (textOf y).length) =
        b.length + (textOf g).length := by
  have hind : ∀ c ∈ (textOf y).takeWhile isIndent, Text.isBlank c = true :=
    fun c hc => isBlank_of_isIndent (List.mem_takeWhile_imp hc)
  obtain ⟨y', hy, -⟩ := hl.lexed.exists_chars
    (List.takeWhile_append_dropWhile (p := isIndent) (l := textOf y)).symm (plain_of_blank hind)
  rw [pastLineComment, slice_length]
  generalize (textOf y).takeWhile isIndent = ind at hind hy ⊢
  subst hy
  have htext : b ++ (textOf (chars ind ++ y') ++ k :: z) = (b ++ ind) ++ (textOf y' ++ k :: z) := by simp
  have hlen : b.length + (textOf (chars ind ++ y')).length = (b ++ ind).length + (textOf y').length := by
    simp [Nat.add_assoc]
  have hstart : b.length + ind.length = (b ++ ind).length := List.length_append.symm
  simp only [htext, hlen, hstart, List.drop_left]
  split_ifs with hc
  · obtain ⟨l, y'', t, rfl, hs, hnl, ht⟩ := exists_lineComment (lexedBefore_append.mp hl).2 hk hc
    refine ⟨chars ind ++ [.literal l], y'', by simp, (trivial_chars hind).append ?_, ?_⟩
    · intro p hp
      obtain rfl := List.mem_singleton.mp hp
      obtain ⟨s, rfl⟩ := List.isPrefixOf_iff_prefix.mp hs
      rfl
    · rw [textOf_cons, Piece.text, ht, List.append_assoc l, List.cons_append, indexFrom?_first hnl (by simp),
        Option.getD_some]
      simp [Piece.text, Nat.add_assoc]
  · exact ⟨[], _, rfl, trivial_nil, by simp⟩

lemma endsLine_newline (g : List Piece) (w : Text) : EndsLine g ('\n' :: w) := fun _ _ _ => rfl

lemma endsLine_nil (w : Text) : EndsLine [] w := by simp [EndsLine]

lemma trimmed_idem (s : List Piece) : trimmed (trimmed s) = trimmed s := by
  by_cases h : core s = []
  · have ht := trimmed_eq_nil.mpr (core_eq_nil.mp h)
    rw [ht]
    exact trimmed_eq_nil.mpr trivial_nil
  · have hs : trimmed s = lead s ++ core s := (lead_append_core s).symm
    rw [hs, trimmed_append_solid (core_solid s) h]

lemma core_trimmed (s : List Piece) : core (trimmed s) = core s := by
  rw [core, trimmed_idem, core]

lemma insertAfterItem_last (u : Text) (o : Char) (items : List Argument) (hl : LexedBefore (k :: z) d)
    (hk : isCloser k = true) {us : List (List Piece)} {s : List Piece} (hseg : segments d = us ++ [s])
    (hs : core s ≠ []) : ∃ l old pre post r, Slot d (us.length + 1) l old pre post r ∧
      ∀ x, insertAfterItem (u ++ o :: (textOf d ++ k :: z))
        ⟨u.length, u.length + (textOf d).length + 1, items⟩ (argumentAt (u.length + 1 +
          (textOf (leading us)).length + (textOf (lead s)).length) (core s) none) x =
            u ++ o :: (textOf (l ++ pre) ++ x ++ (textOf (post ++ r) ++ k :: z)) := by
  obtain ⟨t, ht, htt⟩ := exists_trail s
  rw [lead_append_core] at ht
  have hd : d = leading us ++ trimmed s ++ t := by
    rw [← joined_segments d, hseg, joined_mid, following, List.flatMap_nil, List.append_nil,
      List.append_assoc, ← ht]
  have hlt : LexedBefore (k :: z) t := by
    rw [hd] at hl
    exact (lexedBefore_append.mp hl).2
  generalize hb : u ++ o :: textOf (leading us ++ trimmed s) = b
  have htext : u ++ o :: (textOf d ++ k :: z) = b ++ (textOf t ++ k :: z) := by
    rw [← hb, hd]
    simp
  have hstop : u.length + 1 + (textOf (leading us)).length + (textOf (lead s)).length +
      (textOf (core s)).length = b.length := by
    rw [← hb, ← lead_append_core]
    simp
    omega
  have hclose : u.length + (textOf d).length + 1 = b.length + (textOf t).length := by
    rw [← hb, hd]
    simp
    omega
  have hcore : core (trimmed s) ≠ [] := by rwa [core_trimmed]
  simp only [insertAfterItem, argumentAt, hstop, htext, hclose]
  have hind := lineIndent_blank (b ++ (textOf t ++ k :: z))
    (u.length + 1 + (textOf (leading us)).length + (textOf (lead s)).length)
  generalize lineIndent (b ++ (textOf t ++ k :: z)) _ = indent at hind ⊢
  split_ifs with hm
  · obtain ⟨g, r, rfl, hg, hpos⟩ := pastLineComment_textOf b hlt hk
    have hseg' : segments d = us ++ [trimmed s ++ g ++ r] := by rw [hseg, List.append_assoc, ← ht]
    refine ⟨_, _, _, _, _, .last hseg' (trimmed_idem s) hcore htt.left htt.right
      (endsLine_newline g indent) (newline_blank hind), fun x => ?_⟩
    have hrest : b ++ (textOf (g ++ r) ++ k :: z) = b ++ (textOf g ++ (textOf r ++ k :: z)) := by simp
    rw [hpos, hrest, List.take_left, slice_length, ← List.append_assoc b, ← List.length_append,
      List.drop_left, ← hb]
    simp [comma, Piece.text]
  · have hseg' : segments d = us ++ [trimmed s ++ [] ++ t] := by
      rw [hseg, List.append_nil, ← ht]
    refine ⟨_, _, _, _, _, .last (w := [' ']) hseg' (trimmed_idem s) hcore trivial_nil htt (endsLine_nil _)
      (by decide), fun x => ?_⟩
    rw [insertAt_length, ← hb]
    simp [comma, Piece.text]

lemma exists_prefix_of_trivial {s g r : List Piece} {v : List (List Piece)} (hg : Trivial g)
    (h : s ++ following v = g ++ r) : ∃ y, s = g ++ y ∧ r = y ++ following v := by
  cases v with
  | nil => exact ⟨r, by simpa [following] using h, by simp [following]⟩
  | cons t v => exact append_eq_append_cons_of_not_mem h.symm fun hm => absurd (hg comma hm) (by decide)

lemma insertAfterItem_between (u : Text) (o : Char) (items : List Argument) (hl : LexedBefore (k :: z) d)
    (hk : isCloser k = true) {us v : List (List Piece)} {s t : List Piece}
    (hseg : segments d = us ++ s :: t :: v) (label : Option Text) (start stop : Nat) (value : Span) :
    ∃ l old pre post r, Slot d (us.length + 1) l old pre post r ∧
      ∀ x, insertAfterItem (u ++ o :: (textOf d ++ k :: z))
        ⟨u.length, u.length + (textOf d).length + 1, items⟩ ⟨label, ⟨start, stop⟩, value,
          some (u.length + 1 + (textOf (leading us)).length + (textOf s).length)⟩ x =
            u ++ o :: (textOf (l ++ pre) ++ x ++ (textOf (post ++ r) ++ k :: z)) := by
  have hd : d = leading (us ++ [s]) ++ (t ++ following v) := by
    rw [← joined_segments d, hseg, List.append_cons, joined_mid, List.append_assoc]
  have hlt : LexedBefore (k :: z) (t ++ following v) := by
    rw [hd] at hl
    exact (lexedBefore_append.mp hl).2
  have hseg' : segments d = (us ++ [s]) ++ t :: v := by rw [hseg, List.append_cons]
  have hlen : us.length + 1 = (us ++ [s]).length := by simp
  generalize hb : u ++ o :: textOf (leading (us ++ [s])) = b
  have htext : u ++ o :: (textOf d ++ k :: z) = b ++ (textOf (t ++ following v) ++ k :: z) := by
    rw [← hb, hd]
    simp
  have hcomma : u.length + 1 + (textOf (leading us)).length + (textOf s).length + 1 = b.length := by
    rw [← hb]
    simp [Piece.text, leading, comma]
    omega
  have hclose : u.length + (textOf d).length + 1 = b.length + (textOf (t ++ following v)).length := by
    rw [← hb, hd]
    simp
    omega
  simp only [insertAfterItem, htext, hcomma, hclose, hlen]
  have hind := lineIndent_blank (b ++ (textOf (t ++ following v) ++ k :: z)) start
  generalize lineIndent (b ++ (textOf (t ++ following v) ++ k :: z)) start = indent at hind ⊢
  split_ifs with hm
  · obtain ⟨g, r, hgr, hg, hpos⟩ := pastLineComment_textOf b hlt hk
    obtain ⟨y, rfl, rfl⟩ := exists_prefix_of_trivial hg hgr
    refine ⟨_, _, _, _, _, .ahead hseg' (by simp) hg (endsLine_newline g indent)
      (newline_blank hind) nil_blank, fun x => ?_⟩
    have hrest : b ++ (textOf (g ++ y ++ following v) ++ k :: z) =
        (b ++ textOf g) ++ (textOf (y ++ following v) ++ k :: z) := by simp
    rw [hpos, hrest, ← List.length_append, insertAt_length, ← hb]
    simp
  · refine ⟨_, _, _, _, _, .ahead (w := [' ']) (g := []) hseg' (by simp) trivial_nil
      (endsLine_nil _) (by decide) nil_blank, fun x => ?_⟩
    rw [insertAt_length, ← hb]
    simp

/-- The editor puts an element into a slot after another one. -/
theorem insertAfter_slot (u : Text) (o : Char) {items : List Argument} {n : Nat}
    (hl : LexedBefore (k :: z) d) (hk : isCloser k = true)
    (hitems : argumentsFrom (u.length + 1) (segments d) = .ok items) (hn : n < items.length) :
    ∃ l old pre post r, Slot d (n + 1) l old pre post r ∧
      ∀ x, insertAfter (u ++ o :: (textOf d ++ k :: z)) ⟨u.length, u.length + (textOf d).length + 1, items⟩
        n x = .ok (u ++ o :: (textOf (l ++ pre) ++ x ++ (textOf (post ++ r) ++ k :: z))) := by
  have hsplit : items = items.take n ++ items[n] :: items.drop (n + 1) := by simp
  have hget : items[n]? = some items[n] := List.getElem?_eq_getElem hn
  have hargs := hitems
  rw [hsplit] at hargs
  obtain ⟨us, s, v, hseg, hu, hs, hitem⟩ := argumentsFrom_split hargs
  obtain rfl : us.length = n := by
    rw [← hu.length_eq, List.length_take, Nat.min_eq_left (by omega)]
  simp only [insertAfter, hget, hitem]
  cases v with
  | nil =>
    obtain ⟨l, old, pre, post, r, hslot, hins⟩ := insertAfterItem_last u o items hl hk hseg hs
    exact ⟨l, old, pre, post, r, hslot, fun x => by rw [if_pos rfl, hins]⟩
  | cons t v =>
    obtain ⟨l, old, pre, post, r, hslot, hins⟩ := insertAfterItem_between u o items hl hk hseg _ _ _ _
    exact ⟨l, old, pre, post, r, hslot, fun x => by
      rw [if_neg (List.cons_ne_nil _ _), ← hins]
      rfl⟩

lemma comment_cases {m s : Text} (h : literalLength? (m ++ s) = .ok (some m.length))
    (hm : m.head? = some '/') : ['/', '/'].isPrefixOf m = true ∨ ['/', '*'].isPrefixOf m = true := by
  have hb := literalLength?_bounds h
  match m with
  | [] | [_] => simp at hb
  | c :: c' :: m =>
    obtain rfl : c = '/' := by simpa using hm
    by_cases h₁ : c' = '/'
    · exact .inl (by simp [h₁])
    · by_cases h₂ : c' = '*'
      · exact .inr (by simp [h₂])
      · have hn : opening? ('/' :: c' :: m ++ s) = none := by
          simp [opening?_slash, h₁, h₂]
        rw [literalLength?_eq_none.mpr hn] at h
        simp at h

lemma lineComment_of_trivial {g y : List Piece} {m z : Text} (hl : LexedBefore z (g ++ .literal m :: y))
    (hm : (Piece.literal m).isTrivia = true) (hc : ¬['/', '*'].isPrefixOf m = true) :
    '\n' ∉ m ∧ (textOf y ++ z = [] ∨ (textOf y ++ z).head? = some '\n') := by
  have hlit := (lexedBefore_append.mp hl).2.1
  refine lineComment_ends hlit ((comment_cases hlit ?_).resolve_right hc)
  simpa [Piece.isTrivia] using hm

/-- The last line of a text begins after a character of the code, or inside of a literal. -/
lemma last_newline {g : List Piece} (hn : '\n' ∈ textOf g) :
    (∃ u v, g = u ++ .char '\n' :: v ∧ '\n' ∉ textOf v) ∨
      ∃ u m m' v, g = u ++ .literal (m ++ '\n' :: m') :: v ∧ '\n' ∉ m' ++ textOf v := by
  induction g using List.reverseRecOn with
  | nil => simp at hn
  | append_singleton g p ih =>
    by_cases hp : '\n' ∈ p.text
    · cases p with
      | char c =>
        obtain rfl : '\n' = c := List.mem_singleton.mp hp
        exact .inl ⟨g, [], rfl, by simp⟩
      | literal l =>
        have hmem : '\n' ∈ l.reverse := List.mem_reverse.mpr hp
        obtain ⟨m', m, hl, hm⟩ := List.eq_append_cons_of_mem hmem
        refine .inr ⟨g, m.reverse, m'.reverse, [], ?_, by simpa using hm⟩
        have hl := congrArg List.reverse hl
        rw [List.reverse_reverse] at hl
        simp [hl]
    · have hg : '\n' ∈ textOf g := by simpa [hp] using hn
      rcases ih hg with ⟨u, v, rfl, hv⟩ | ⟨u, m, m', v, rfl, hv⟩
      · exact .inl ⟨u, v ++ [p], by simp, by simp [hv, hp]⟩
      · rw [List.mem_append, not_or] at hv
        exact .inr ⟨u, m, m', v ++ [p], by simp, by simp [hv, hp]⟩

lemma blockCommentLength?_end {depth n : Nat} {t : Text} (h : blockCommentLength? depth t = some n) :
    (t.take n).getLast? = some '/' := by
  fun_induction blockCommentLength? depth t generalizing n with
  | case1 depth t ih | case3 depth t hd ih =>
    obtain ⟨m, hm, rfl⟩ := Option.map_eq_some_iff.mp h
    simp only [List.take_succ_cons, List.getLast?_cons, ih hm, Option.getD_some]
  | case2 depth t hd =>
    obtain rfl : 2 = n := by simpa using h
    rfl
  | case4 depth c t _ _ ih =>
    obtain ⟨m, hm, rfl⟩ := Option.map_eq_some_iff.mp h
    simp only [List.take_succ_cons, List.getLast?_cons, ih hm, Option.getD_some]
  | case5 => simp at h

lemma blockComment_length {l s : Text} (h : literalLength? (l ++ s) = .ok (some l.length))
    (hl : ['/', '*'].isPrefixOf l = true) : blockCommentLength? 0 (l ++ s) = some l.length := by
  obtain ⟨l, rfl⟩ := List.isPrefixOf_iff_prefix.mp hl
  simp only [List.cons_append, List.nil_append, literalLength?, opening?_slash,
    show ¬('*' = '/') by decide, if_false, if_true] at h ⊢
  cases hb : blockCommentLength? 0 ('/' :: '*' :: (l ++ s)) with
  | none => simp [hb] at h
  | some n =>
    rw [hb] at h
    exact Except.ok.inj h

lemma blockComment_end {l s : Text} (h : literalLength? (l ++ s) = .ok (some l.length))
    (hl : ['/', '*'].isPrefixOf l = true) : l.getLast? = some '/' := by
  have := blockCommentLength?_end (blockComment_length h hl)
  rwa [List.take_left] at this

lemma after_newline {m m' : Text} (h : (m ++ '\n' :: m').getLast? = some '/') :
    m'.getLast? = some '/' := by
  rw [List.getLast?_append_of_ne_nil _ (List.cons_ne_nil _ _), List.getLast?_cons] at h
  cases hm : m'.getLast? with
  | none => simp [hm] at h
  | some c => simpa [hm] using h

lemma indent_before_slash {m : Text} (t : Text) (h : m.getLast? = some '/') :
    (m ++ t).takeWhile isIndent <+: m ∧ ((m ++ t).takeWhile isIndent).length < m.length := by
  obtain ⟨w, rfl⟩ := List.getLast?_eq_some_iff.mp h
  have hindent := List.takeWhile_prefix isIndent (l := w)
  rw [List.append_assoc, List.singleton_append, takeWhile_append_stop rfl, List.length_append,
    List.length_singleton]
  exact ⟨hindent.trans (List.prefix_append _ _), Nat.lt_succ_of_le hindent.length_le⟩

lemma head_not_blank {p : Piece} {ps : List Piece} {z : Text} {c : Char} (hl : LexedBefore z (p :: ps))
    (hp : p.isTrivia = false) (hc : (textOf (p :: ps) ++ z).head? = some c) : Text.isBlank c = false := by
  cases p with
  | char d =>
    obtain rfl : d = c := by simpa [Piece.text] using hc
    exact hp
  | literal m =>
    by_contra hblank
    refine literal_head_ne hl.1 (ordinary_of_isBlank (Bool.of_not_eq_false hblank)).1 ?_
    simpa [Piece.text] using hc

lemma endsLine_lead {s y : List Piece} {z : Text} (hl : LexedBefore z (lead s ++ (core s ++ y)))
    (hs : core s ≠ []) : EndsLine (lead s) [] := by
  intro m hm hline
  obtain ⟨g, hg⟩ := List.getLast?_eq_some_iff.mp hm
  rw [hg, List.append_assoc, lexedBefore_append, List.singleton_append] at hl
  obtain ⟨p, c, hcore⟩ := List.exists_cons_of_ne_nil hs
  have hp := (core_solid s).1 p (by rw [hcore]; rfl)
  obtain ⟨hlit, hrest⟩ := hl.2
  have hnext := (lineComment_ends hlit hline).2
  have hne : textOf (core s ++ y) ≠ [] := hrest.textOf_ne_nil (by simp [hs])
  have hnext := hnext.resolve_left (List.append_ne_nil_of_left_ne_nil hne _)
  rw [hcore] at hrest hnext
  exact absurd (head_not_blank hrest hp hnext) (by decide)

section

variable {s : List Piece} {v : List (List Piece)} {args : ArgumentList} {first : Argument}

lemma isMultiline_lead (hseg : segments d = s :: v) (ho : args.opener = u.length)
    (hh : args.items.head? = some first)
    (hf : first.span.start = u.length + 1 + (textOf (lead s)).length) :
    isMultiline (u ++ o :: (textOf d ++ k :: z)) args = (textOf (lead s)).elem '\n' := by
  obtain ⟨c, hd⟩ : ∃ c, d = lead s ++ (core s ++ c) := exists_after_lead hseg
  have htext : u ++ o :: (textOf d ++ k :: z) =
      (u ++ [o]) ++ (textOf (lead s) ++ (textOf (core s ++ c) ++ k :: z)) := by
    conv_lhs => rw [hd]
    simp
  have hlines : (u ++ o :: (textOf d ++ k :: z)).slice (u.length + 1)
      (u.length + 1 + (textOf (lead s)).length) = textOf (lead s) := by
    rw [htext, show u.length + 1 = (u ++ [o]).length by simp, slice_length]
  rw [isMultiline, hh, ho]
  simp only [Option.map_some, Option.getD_some, hf, hlines]

/-- A comment that goes over several lines is a block comment, and its last line does not end with blanks. -/
lemma indent_in_comment {g y : List Piece} {m m' t z : Text}
    (hl : LexedBefore z (g ++ .literal (m ++ '\n' :: m') :: y))
    (hm : (Piece.literal (m ++ '\n' :: m')).isTrivia = true) :
    ['/', '*'].isPrefixOf (m ++ '\n' :: m') = true ∧ (m' ++ t).takeWhile isIndent <+: m' ∧
      ((m' ++ t).takeWhile isIndent).length < m'.length := by
  have hblock : ['/', '*'].isPrefixOf (m ++ '\n' :: m') = true := by
    by_contra hc
    exact absurd (List.mem_append_right m List.mem_cons_self) (lineComment_of_trivial hl hm hc).1
  -- the comment goes on to its last character, which is no blank
  have hend : (m ++ '\n' :: m').getLast? = some '/' := blockComment_end (lexedBefore_append.mp hl).2.1 hblock
  exact ⟨hblock, indent_before_slash t (after_newline hend)⟩

/-- A text goes before the first item either between the pieces that stand there, or into a comment that
spreads over lines. -/
theorem front_cases (hl : LexedBefore (k :: z) d) (hseg : segments d = s :: v) (hs : core s ≠ [])
    (ho : args.opener = u.length) (hh : args.items.head? = some first)
    (hf : first.span.start = u.length + 1 + (textOf (lead s)).length) {t : Text}
    (ht : t = u ++ o :: (textOf d ++ k :: z)) :
    (∃ g y, lead s = g ++ y ∧ EndsLine g (margin t args first) ∧
      front t args first = u.length + 1 + (textOf g).length) ∨
    ∃ g m m' y, lead s = g ++ .literal (m ++ '\n' :: m') :: y ∧
      ['/', '*'].isPrefixOf (m ++ '\n' :: m') = true ∧
      front t args first = u.length + 1 + (textOf g).length + (m.length + 1) ∧
      margin t args first <+: m' ∧ (margin t args first).length < m'.length := by
  obtain ⟨c, hd⟩ : ∃ c, d = lead s ++ (core s ++ c) := exists_after_lead hseg
  generalize hrest : core s ++ c = c at hd
  have hmulti : isMultiline t args = (textOf (lead s)).elem '\n' := by
    rw [ht]
    exact isMultiline_lead hseg ho hh hf
  rw [front, margin, hmulti, hf]
  rw [hd] at hl
  by_cases hn : '\n' ∈ textOf (lead s)
  · rw [if_pos (by simpa using hn), if_pos (by simpa using hn)]
    rcases last_newline hn with ⟨g, y, hg, hy⟩ | ⟨g, m, m', y, hg, hy⟩
    · have htext : t = (u ++ o :: textOf g) ++ '\n' :: (textOf y ++ (textOf c ++ k :: z)) := by
        rw [ht, hd, hg]
        simp [Piece.text]
      have hpos : u.length + 1 + (textOf (lead s)).length =
          (u ++ o :: textOf g).length + 1 + (textOf y).length := by
        rw [hg]
        simp [Piece.text]
        omega
      refine .inl ⟨g ++ [.char '\n'], y, by simp [hg], ?_, ?_⟩
      · simp [EndsLine]
      · rw [htext, hpos, lineStart_length hy]
        simp [Piece.text]
        omega
    · have htext : t = (u ++ o :: (textOf g ++ m)) ++ '\n' :: (m' ++ textOf y ++ (textOf c ++ k :: z)) := by
        rw [ht, hd, hg]
        simp [Piece.text]
      have hpos : u.length + 1 + (textOf (lead s)).length =
          (u ++ o :: (textOf g ++ m)).length + 1 + (m' ++ textOf y).length := by
        rw [hg]
        simp [Piece.text]
        omega
      rw [hg, List.append_assoc] at hl
      obtain ⟨hblock, hindent⟩ := indent_in_comment (t := textOf y ++ (textOf c ++ k :: z)) hl
        (lead_trivial s _ (by rw [hg]; simp))
      refine .inr ⟨g, m, m', y, hg, hblock, ?_, ?_⟩
      · rw [htext, hpos, lineStart_length (by simpa using hy)]
        simp
        omega
      · rw [htext, hpos, lineIndent_length (by simpa using hy), List.append_assoc]
        exact hindent
  · rw [if_neg (by simpa using hn), if_neg (by simpa using hn)]
    refine .inl ⟨lead s, [], by simp, ?_, rfl⟩
    rw [← hrest] at hl
    exact endsLine_lead hl hs

/-- The editor puts an element into a slot before all others, if the place is between two pieces. -/
theorem prepend_slot (hseg : segments d = s :: v) (hs : core s ≠ [])
    (hh : args.items.head? = some first) {t : Text} (ht : t = u ++ o :: (textOf d ++ k :: z))
    {g y : List Piece} (hgy : lead s = g ++ y) (he : EndsLine g (margin t args first))
    (hf : front t args first = u.length + 1 + (textOf g).length) :
    ∃ l old pre post r, Slot d 0 l old pre post r ∧
      (textOf (l ++ pre)).length = (textOf g).length + (margin t args first).length ∧
      ∀ x, prepend t args x = .ok (u ++ o :: (textOf (l ++ pre) ++ x ++ (textOf (post ++ r) ++ k :: z))) := by
  obtain ⟨r, hr, hrt⟩ := exists_trail s
  have hg : Trivial g := Trivial.left (hgy ▸ lead_trivial s)
  have hseg' : segments d = [] ++ (g ++ (y ++ (core s ++ r))) :: v := by
    rw [hseg]
    conv_lhs => rw [hr, hgy]
    simp
  have hcore : core (y ++ (core s ++ r)) ≠ [] := by
    rw [← core_trivial_append hg, ← List.append_assoc, ← hgy, ← List.append_assoc, ← hr]
    exact hs
  refine ⟨_, _, _, _, _, .ahead hseg' (fun _ => hcore) hg he (margin_blank t args first)
    (gap_blank t args), by simp [leading], fun x => ?_⟩
  have htext : t = (u ++ o :: textOf g) ++ (textOf (y ++ (core s ++ r)) ++ (textOf (following v) ++ k :: z)) := by
    rw [ht, ← joined_segments d, hseg', joined_mid]
    simp [leading]
  have hpos : u.length + 1 + (textOf g).length = (u ++ o :: textOf g).length := by
    simp
    omega
  rw [prepend, hh]
  simp only [prependToItem_eq, hf, hpos]
  generalize margin t args first = w
  generalize gap t args = w'
  rw [htext, insertAt_length]
  simp [leading]

end

/-- Comments are kept where an element is put before them. -/
lemma slot_kept (u : Text) (o : Char) (hd : Trivial d) {w : Text} (hw : ∀ c ∈ w, Text.isBlank c = true) :
    ∃ l old pre post r, Slot d 0 l old pre post r ∧
      ∀ x, insertAt (u ++ [o] ++ (textOf d ++ k :: z)) (u ++ [o]).length (w ++ x) =
        u ++ o :: (textOf (l ++ pre) ++ x ++ (textOf (post ++ r) ++ k :: z)) := by
  refine ⟨_, _, _, _, _, .only (v := []) rfl hd nil_blank hw nil_blank, fun x => ?_⟩
  rw [insertAt_length]
  simp

/-- Blanks give way to an element. -/
lemma slot_gone (u : Text) (o : Char) (hl : LexedBefore (k :: z) d)
    (hd : ¬(!(textOf d).all Text.isBlank) = true) {w w' : Text} (hw : ∀ c ∈ w, Text.isBlank c = true)
    (hw' : ∀ c ∈ w', Text.isBlank c = true) : ∃ l old pre post r, Slot d 0 l old pre post r ∧
      ∀ x, (u ++ [o] ++ (textOf d ++ k :: z)).take (u ++ [o]).length ++ (w ++ x ++ w') ++
          (u ++ [o] ++ (textOf d ++ k :: z)).drop ((u ++ [o]).length + (textOf d).length) =
        u ++ o :: (textOf (l ++ pre) ++ x ++ (textOf (post ++ r) ++ k :: z)) := by
  have hblank : ∀ c ∈ textOf d, Text.isBlank c = true := by simpa using hd
  have hchars : d = chars (textOf d) ++ [] := by
    rw [List.append_nil]
    refine hl.lexed.eq_of_textOf (lexed_iff.mpr (lexedBefore_chars (plain_of_blank hblank) _)) ?_
    rw [textOf_chars]
  refine ⟨_, _, _, _, _, .only hchars trivial_nil hblank hw hw', fun x => ?_⟩
  rw [List.take_left, ← List.append_assoc (u ++ [o]) (textOf d), ← List.length_append, List.drop_left]
  simp

/-- The editor puts an element into the slot of a list that has none. -/
theorem fillEmpty_slot (u : Text) (o : Char) (items : List Argument) (hl : LexedBefore (k :: z) d)
    (hd : Trivial d) (multi : Bool) : ∃ l old pre post r, Slot d 0 l old pre post r ∧
      ∀ x, fillEmpty (u ++ o :: (textOf d ++ k :: z)) ⟨u.length, u.length + (textOf d).length + 1, items⟩ x
        multi = u ++ o :: (textOf (l ++ pre) ++ x ++ (textOf (post ++ r) ++ k :: z)) := by
  have htext : u ++ o :: (textOf d ++ k :: z) = (u ++ [o]) ++ (textOf d ++ k :: z) := by simp
  have hclose : u.length + (textOf d).length + 1 = (u ++ [o]).length + (textOf d).length := by
    simp
    omega
  simp only [fillEmpty, hclose, show u.length + 1 = (u ++ [o]).length by simp, htext, slice_length]
  generalize hbase : lineIndent ((u ++ [o]) ++ (textOf d ++ k :: z)) u.length = base
  have hb : ∀ c ∈ base, Text.isBlank c = true := hbase ▸ lineIndent_blank _ _
  have hline : ∀ c ∈ '\n' :: base ++ indentUnit base, Text.isBlank c = true :=
    newline_blank fun c hc => (List.mem_append.mp hc).elim (hb c) (indentUnit_blank base c)
  by_cases hm : (multi || (textOf d).elem '\n') = true
  · by_cases ht : (!(textOf d).all Text.isBlank) = true
    · simp only [if_pos hm, if_pos ht]
      exact slot_kept u o hd hline
    · simp only [if_pos hm, if_neg ht]
      simpa using slot_gone u o hl ht hline (newline_blank hb)
  · by_cases ht : (!(textOf d).all Text.isBlank) = true
    · simp only [if_neg hm, if_pos ht]
      exact slot_kept u o hd nil_blank
    · simp only [if_neg hm, if_neg ht]
      simpa using slot_gone u o hl ht nil_blank nil_blank

section

variable {ps a x : List Piece} {list : ArgumentList} {es : List (List Piece)} {z : List Piece}

lemma textOf_group (a d z : List Piece) (o k : Char) : textOf (a ++ .char o :: (d ++ .char k :: z)) =
    textOf a ++ o :: (textOf d ++ k :: textOf z) := by
  simp [Piece.text]

lemma Lexed.group (hl : Lexed (a ++ .char o :: (d ++ .char k :: z))) : LexedBefore (k :: textOf z) d := by
  simpa [Piece.text] using (lexed_append.mp hl.right.tail).1

lemma Lists.eq_mk (h : Lists ps a d list es) :
    list = ⟨(textOf a).length, (textOf a).length + (textOf d).length + 1, list.items⟩ := by
  rw [← h.closer, ← h.opener]

lemma Slot.exists_inserts {n : Nat} {l old pre post r : List Piece} (h : Slot d n l old pre post r)
    (hl : Lexed (a ++ .char o :: (d ++ .char k :: z))) (ho : closerOf? o = some k) (hb : Balanced d)
    (hx : Insertable x) (hes : contents d = some es) (hn : n = 0 → o = '[') {f : Text → Text}
    (hf : ∀ t, f t = textOf a ++ o :: (textOf (l ++ pre) ++ t ++ (textOf (post ++ r) ++ k :: textOf z))) :
    ∃ e l r, e.source = a ++ .char o :: (d ++ .char k :: z) ∧
      Inserts e f a l r z o k (es.take n) (es.drop n) x := by
  refine ⟨_, l, r, ?_, h.inserts hl ho hb hx hes hn fun t => ?_⟩
  · rw [Splice.source, h.source]
    simp
  · rw [hf]
    simp [Piece.text]

/-- The editor puts an element after another one. -/
theorem insertAfter_inserts {n : Nat} (h : Lists ps a d list es) (hl : Lexed ps)
    (hps : ps = a ++ .char o :: (d ++ .char k :: z)) (ho : closerOf? o = some k) (hb : Balanced d)
    (hx : Insertable x) (hn : n < es.length) : ∃ e f l r, e.source = ps ∧
      (∀ t, insertAfter (textOf ps) list n t = .ok (f t)) ∧
        Inserts e f a l r z o k (es.take (n + 1)) (es.drop (n + 1)) x := by
  subst hps
  obtain ⟨l, old, pre, post, r, hslot, hf⟩ :=
    insertAfter_slot (textOf a) o hl.group (isCloser_of_closerOf? ho).2.2 h.items (h.reads.length_eq.trans_ge hn)
  obtain ⟨e, l, r, he, hin⟩ := hslot.exists_inserts hl ho hb hx h.elements (by simp) fun _ => rfl
  refine ⟨e, _, l, r, he, fun t => ?_, hin⟩
  rw [textOf_group, h.eq_mk]
  exact hf t

/-- The editor puts an element before all others. Where the first element stands on a line of its own,
that line has to begin outside of comments. -/
theorem prepend_inserts (h : Lists ps a d list es) (hl : Lexed ps)
    (hps : ps = a ++ .char '[' :: (d ++ .char ']' :: z)) (hb : Balanced d) (hx : Insertable x) (hne : es ≠ [])
    (hclear : ∀ m, .literal m ∈ preface d → ¬['/', '*'].isPrefixOf m = true) : ∃ e f l r, e.source = ps ∧
      (∀ t, prepend (textOf ps) list t = .ok (f t)) ∧ Inserts e f a l r z '[' ']' [] es x := by
  subst hps
  obtain ⟨first, rest, hitems⟩ : ∃ first rest, list.items = first :: rest := by
    refine List.exists_cons_of_ne_nil fun hi => hne (List.length_eq_zero_iff.mp ?_)
    rw [← h.reads.length_eq, hi, List.length_nil]
  have hhead : list.items.head? = some first := by rw [hitems, List.head?_cons]
  obtain ⟨s, v, hseg, hs, hfirst⟩ := argumentsFrom_head (hitems ▸ h.items)
  have hstart : first.span.start = (textOf a).length + 1 + (textOf (lead s)).length := by rw [hfirst]
  have htext := textOf_group a d z '[' ']'
  rcases front_cases hl.group hseg hs h.opener hhead hstart htext with
    ⟨g, y, hgy, he, hf⟩ | ⟨g, m, m', y, hg, hblock, -⟩
  · obtain ⟨l, old, pre, post, r, hslot, -, hp⟩ := prepend_slot hseg hs hhead htext hgy he hf
    obtain ⟨e, l, r, he, hin⟩ := hslot.exists_inserts hl rfl hb hx h.elements (fun _ => rfl) fun _ => rfl
    exact ⟨e, _, l, r, he, hp, hin⟩
  · refine absurd hblock (hclear _ ?_)
    rw [preface, hseg, List.headD_cons, hg]
    simp

/-- The editor fills a list that has no elements. -/
theorem fillEmpty_inserts (h : Lists ps a d list []) (hl : Lexed ps)
    (hps : ps = a ++ .char '[' :: (d ++ .char ']' :: z)) (hx : Insertable x) (multi : Bool) :
    ∃ e l r, e.source = ps ∧
      Inserts e (fun t => fillEmpty (textOf ps) list t multi) a l r z '[' ']' [] [] x := by
  subst hps
  have hd := trivial_of_contents h.elements
  obtain ⟨l, old, pre, post, r, hslot, hf⟩ := fillEmpty_slot (textOf a) '[' list.items hl.group hd multi
  refine hslot.exists_inserts hl rfl (trivial_balanced hd) hx h.elements (fun _ => rfl) fun t => ?_
  rw [textOf_group, h.eq_mk]
  exact hf t

end

end PackageInstaller.Manifest
