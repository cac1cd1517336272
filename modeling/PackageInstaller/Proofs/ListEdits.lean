import PackageInstaller.Proofs.Layout

/-! An element of any kind is put into a list: a text that is one element when it stands in brackets alone.
After another element it always becomes one more element of the list. Before all others it does where no
comment goes on over the place, and nowhere else. In a list without elements it is the only one. -/

namespace PackageInstaller.Manifest

/-- The text is read as one element when it stands in brackets alone. -/
def StandsAlone (x : Text) : Prop := ∃ alone, splitArguments ('[' :: (x ++ [']'])) 0 = .ok alone ∧
  alone.items.map (·.span) = [⟨1, 1 + x.length⟩]

/-- The list `args'` of `t'` is the list `args` of `t` with the element `x` after the first `n`. -/
structure Gains (t : Text) (args : ArgumentList) (n : Nat) (x t' : Text) (args' : ArgumentList) : Prop where
  shown : args'.shown t' =
    (args.shown t).take n ++ ((label? x).map (·.1), x) :: (args.shown t).drop n
  endsInComma : args'.endsInComma = args.endsInComma
  comments : ∃ c₁ c₂ own, args.comments t = .ok (c₁ ++ c₂) ∧ args'.comments t' = .ok (c₁ ++ own ++ c₂)

variable {t u x z : Text} {o k : Char} {b l old pre post r : List Piece} {n opener : Nat}
  {args : ArgumentList}

lemma LexedBefore.eq_nil {ps : List Piece} (h : LexedBefore z ps) (ht : (textOf ps).length = 0) : ps = [] := by
  by_contra hn
  exact h.textOf_ne_nil hn (List.length_eq_zero_iff.mp ht)

/-- The pieces of the text are one element wherever they are put. The last of them begins neither a comment nor
a string with what follows. -/
lemma StandsAlone.exists_elemental (h : StandsAlone x) (hx : x.getLast? ≠ some '/') :
    ∃ ps, Elemental ps ∧ textOf ps = x := by
  obtain ⟨alone, halone, hspan⟩ := h
  obtain ⟨u, o, k, b, z, hg, hu, -, -, hitems⟩ := splitArguments_iff.mp halone
  obtain rfl : u = [] := List.length_eq_zero_iff.mp hu.symm
  obtain ⟨-, htext⟩ : '[' = o ∧ x ++ [']'] = textOf b ++ k :: z := by simpa using hg.text
  obtain ⟨item, hone, hitem⟩ := List.map_eq_singleton_iff.mp hspan
  rw [hone] at hitems
  obtain ⟨s, v, hseg, hs, hplace⟩ := argumentsFrom_head hitems
  rw [hplace] at hitem
  obtain ⟨y, hb⟩ := exists_after_lead hseg
  -- the element fills the brackets, so that nothing stands around it
  have hlex := hg.lexed
  rw [hb, lexedBefore_append, lexedBefore_append] at hlex
  have hlen := congrArg List.length htext
  simp only [hb, textOf_append, List.length_append, List.length_cons, List.length_nil] at hlen
  have hstart := congrArg Interval.start hitem
  have hstop := congrArg Interval.stop hitem
  simp only [List.length_nil] at hstart hstop
  have hlead : lead s = [] := hlex.1.eq_nil (by omega)
  have hrest : y = [] := hlex.2.2.eq_nil (by omega)
  obtain rfl : b = core s := by rw [hb, hlead, hrest]; simp
  have hz : [']'].length = (k :: z).length := by
    simp only [List.length_cons, List.length_nil]
    omega
  obtain rfl : x = textOf (core s) := List.append_inj_left' htext hz
  have hseg : Segment s := segment_of_mem hg.balanced (by rw [hseg]; simp)
  refine ⟨core s, ⟨hseg.core, core_solid s, hs, fun hq hh => hg.lexed.rejoin fun q hlast => ?_⟩, rfl⟩
  have hq' := (core_solid s).2 q hlast
  obtain ⟨a, ha⟩ := List.getLast?_eq_some_iff.mp hlast
  cases q with
  | char c =>
    refine ⟨fun hc => absurd ?_ hx, fun _ => ⟨hh, hq⟩⟩
    rw [ha, hc]
    simp [Piece.text]
  | literal m =>
    refine ⟨.inr hq, fun hm => ?_⟩
    obtain ⟨m, rfl⟩ := List.isPrefixOf_iff_prefix.mp hm
    simp [Piece.isTrivia] at hq'

lemma Slot.grouped (h : Slot b n l old pre post r) (hg : Grouped t u o k b z) {ps : List Piece}
    (hx : Elemental ps) :
    Grouped (u ++ o :: (textOf (l ++ pre) ++ textOf ps ++ (textOf (post ++ r) ++ k :: z))) u o k
      (l ++ (pre ++ ps ++ post) ++ r) z :=
  ⟨by simp, hg.brackets, h.target_balanced hg.balanced hx.segment.balanced,
    h.lexed hx (isCloser_of_closerOf? hg.brackets).2.2 hg.lexed⟩

/-- An element put into a slot is read there, as one more element of the list. -/
theorem Slot.gains (h : Slot b n l old pre post r) (hg : Grouped t u o k b z)
    (hargs : splitArguments t u.length = .ok args) {ps : List Piece} (hx : Elemental ps) {t' : Text}
    (ht : t' = u ++ o :: (textOf (l ++ pre) ++ textOf ps ++ (textOf (post ++ r) ++ k :: z))) :
    ∃ args', splitArguments t' u.length = .ok args' ∧ Gains t args n (textOf ps) t' args' := by
  subst ht
  have hg' := h.grouped hg hx
  obtain ⟨es, hes, hshown⟩ := hg.shown hargs
  obtain ⟨us, g, y, v, cs, hfill, -, rfl⟩ := h.exists_fills hg.balanced hx hes
  have hcontents := hfill.contents_eq hx
  obtain ⟨args', hargs'⟩ := hg'.arguments hcontents
  obtain ⟨es', hes', hshown'⟩ := hg'.shown hargs'
  obtain rfl := Option.some.inj (hcontents.symm.trans hes')
  have hlen := congrArg List.length hshown
  have hlen' := congrArg List.length hshown'
  simp only [ArgumentList.shown_length, List.length_map, List.length_append, List.length_cons,
    List.length_take, List.length_drop] at hlen hlen'
  refine ⟨args', hargs', ?_, ?_, ?_⟩
  · rw [hshown', hshown, ← List.map_take, ← List.map_drop, List.map_append, List.map_cons]
    rfl
  · exact endsInComma_eq (hg.items hargs).2.2 hlen hes (hg'.items hargs').2.2 (by omega)
      hfill.segments_length
  · obtain ⟨c₁, c₂, hc, hc'⟩ := h.comments (x := ps)
    exact ⟨c₁, c₂, commentsOf ps, by rw [hg.comments hargs, hc], by rw [hg'.comments hargs', hc']⟩

/-- The element put after another one is one more element of the list, right after it. -/
theorem insertAfter_gains {index : Nat} (h : splitArguments t opener = .ok args)
    (hi : index < args.items.length) (hx : StandsAlone x) (hslash : x.getLast? ≠ some '/') :
    ∃ r args', Layout.insertAfter t args index x = .ok r ∧ splitArguments r opener = .ok args' ∧
      Gains t args (index + 1) x r args' := by
  obtain ⟨ps, hps, rfl⟩ := hx.exists_elemental hslash
  obtain ⟨u, o, k, b, z, hg, rfl, ho, hc, hitems⟩ := splitArguments_iff.mp h
  obtain ⟨l, old, pre, post, r, hslot, hins⟩ :=
    insertAfter_slot u o hg.lexed (isCloser_of_closerOf? hg.brackets).2.2 hitems hi
  obtain ⟨args', hargs', hgains⟩ := hslot.gains hg h hps rfl
  refine ⟨_, args', ?_, hargs', hgains⟩
  rw [← hins, ← hg.text, ← hc, ← ho]

def commentedList : Text := "[\n  a, // one\n  b // two\n]".toList

lemma commentedList_split : splitArguments commentedList 0 = .ok
    ⟨0, 25, [⟨none, ⟨4, 5⟩, ⟨4, 5⟩, some 5⟩, ⟨none, ⟨16, 17⟩, ⟨16, 17⟩, none⟩]⟩ := by
  decide +kernel

lemma standsAlone_labelled : StandsAlone "c: [1, 2]".toList :=
  ⟨⟨0, 10, [⟨some ['c'], ⟨1, 10⟩, ⟨4, 10⟩, none⟩]⟩, by decide +kernel, by decide +kernel⟩

theorem insertAfter_gains_commented : StandsAlone "c: [1, 2]".toList ∧
    ∃ args r args', splitArguments commentedList 0 = .ok args ∧ 1 < args.items.length ∧
      Layout.insertAfter commentedList args 1 "c: [1, 2]".toList = .ok r ∧
        splitArguments r 0 = .ok args' ∧ args'.endsInComma = false ∧
          args'.shown r = [(none, ['a']), (none, ['b']), (some ['c'], "c: [1, 2]".toList)] := by
  obtain ⟨r, args', hr, hargs', hgains⟩ := insertAfter_gains commentedList_split (show 1 < 2 by decide)
    standsAlone_labelled (by decide)
  refine ⟨standsAlone_labelled, _, r, args', commentedList_split, by decide, hr, hargs', ?_, ?_⟩
  · rw [hgains.endsInComma]
    rfl
  · rw [hgains.shown]
    decide +kernel

lemma not_ends_inside {g ls : List Piece} {c c₀ s : Text} (hg : Trivial g) (hgl : LexedBefore (c ++ s) g)
    (hc : literalLength? (c ++ s) = .ok (some c.length)) (hblock : ['/', '*'].isPrefixOf c₀ = true)
    (hpre : c₀ <+: c) (hlt : c₀.length < c.length) (hl : LexedBefore z ls) :
    textOf ls ≠ textOf g ++ c₀ := by
  intro ht
  obtain ⟨c₁, rfl⟩ := List.isPrefixOf_iff_prefix.mp hblock
  obtain ⟨c₂, rfl⟩ := hpre
  have hgl' : LexedBefore (['/', '*'] ++ c₁ ++ z) g := by
    refine hgl.rejoin fun q hq => ?_
    have hq' := hg q (List.mem_of_getLast? hq)
    cases q with
    | char d => exact joins_plain (ordinary_of_isBlank hq').1 _
    | literal m =>
      refine ⟨.inl (by simpa [Piece.isTrivia] using hq'), fun hm => ?_⟩
      obtain ⟨g, rfl⟩ := List.getLast?_eq_some_iff.mp hq
      have := (lineComment_ends (lexedBefore_append.mp hgl).2.1 hm).2
      simp at this
  obtain ⟨rs, rfl, hrs⟩ := hl.exists_append hgl' ht
  have hl := (lexedBefore_append.mp hl).2
  cases rs with
  | nil => simp at hrs
  | cons p rs =>
    cases p with
    | char d =>
      have hopen := literalLength?_eq_none.mp hl.1
      have htext : d :: (textOf rs ++ z) = '/' :: '*' :: (c₁ ++ z) := by
        rw [← List.cons_append, show d :: textOf rs = ['/', '*'] ++ c₁ from hrs]
        rfl
      rw [htext, opening?_slash] at hopen
      simp at hopen
    | literal m =>
      have hb : ['/', '*'].length ≤ m.length := (literalLength?_bounds hl.1).1
      have hm : ['/', '*'].isPrefixOf m = true := by
        rw [← isPrefixOf_append (textOf rs) hb, show m ++ textOf rs = ['/', '*'] ++ c₁ from hrs]
        rfl
      have hlen := congrArg List.length hrs
      rw [textOf_cons, Piece.text] at hlen
      -- the comment that ends here ends here whatever follows
      have hshort := blockCommentLength?_append (textOf rs ++ c₂ ++ s) (blockComment_length hl.1 hm) le_rfl
      have hlong := blockComment_length hc rfl
      have htext : ['/', '*'] ++ c₁ ++ c₂ ++ s = m ++ (textOf rs ++ c₂ ++ s) := by
        rw [← hrs]
        simp [Piece.text]
      rw [htext, hshort] at hlong
      have hlong := Option.some.inj hlong
      rw [List.length_append] at hlen
      omega

lemma Slot.head_start (h : Slot b 0 l old pre post r) (hg : Grouped t u o k b z)
    (hargs : splitArguments t u.length = .ok args) {ps : List Piece} (hx : Elemental ps)
    {args' : ArgumentList} (hargs' : splitArguments
      (u ++ o :: (textOf (l ++ pre) ++ textOf ps ++ (textOf (post ++ r) ++ k :: z))) u.length = .ok args') :
    args'.items.head?.map (·.span.start) = some (u.length + 1 + (textOf (l ++ pre)).length) := by
  obtain ⟨es, hes, -⟩ := hg.shown hargs
  obtain ⟨us, g, y, v, cs, hfill, hlead, hus⟩ := h.exists_fills hg.balanced hx hes
  obtain rfl := List.length_eq_zero_iff.mp hus
  obtain ⟨hleads, hcore⟩ := hx.core_eq hfill.ahead hfill.behind
  rw [(h.grouped hg hx).head_start hargs' hfill.cut (by rw [hcore]; exact hx.ne_nil), hleads, hlead]
  rfl

lemma head_start_ne {g y : List Piece} {c c₀ s : Text} {args' : ArgumentList} (hg : Grouped t u o k b z)
    (hb : b = g ++ .literal c :: y) (hgt : Trivial g) (hblock : ['/', '*'].isPrefixOf c₀ = true)
    (hpre : c₀ <+: c) (hlt : c₀.length < c.length)
    (h : splitArguments (u ++ o :: (textOf g ++ c₀ ++ s)) u.length = .ok args') :
    args'.items.head?.map (·.span.start) ≠ some (u.length + 1 + (textOf g ++ c₀).length) := by
  intro hstart
  obtain ⟨u', o', k', b', z', hg', hu, -, -, hitems⟩ := splitArguments_iff.mp h
  obtain ⟨first, hfirst, hplace⟩ := Option.map_eq_some_iff.mp hstart
  obtain ⟨rest, hrest⟩ := List.head?_eq_some_iff.mp hfirst
  rw [hrest] at hitems
  obtain ⟨s', v', hseg, -, hspan⟩ := argumentsFrom_head hitems
  obtain ⟨y', hb'⟩ := exists_after_lead hseg
  rw [hspan] at hplace
  obtain ⟨rfl, htext⟩ := List.append_inj hg'.text hu
  obtain ⟨-, htext⟩ := List.cons.inj htext
  rw [hb', textOf_append, List.append_assoc (textOf (lead s'))] at htext
  have hlead := List.append_inj_left htext (Nat.add_left_cancel hplace).symm
  have hlex' := hg'.lexed
  rw [hb', lexedBefore_append] at hlex'
  have hlex := hg.lexed
  rw [hb, lexedBefore_append] at hlex
  obtain ⟨hleft, hlit, -⟩ := hlex
  rw [textOf_cons, Piece.text, List.append_assoc] at hleft
  exact not_ends_inside hgt hleft hlit hblock hpre hlt hlex'.1 hlead.symm

lemma isPrefixOf_before_newline {m m' : Text} (h : ['/', '*'].isPrefixOf (m ++ '\n' :: m') = true) :
    ['/', '*'].isPrefixOf m = true := by
  cases m with
  | nil => simp at h
  | cons c m =>
    cases m with
    | nil => simp at h
    | cons d m => simpa using h

section

variable {first : Argument} {m m' : Text} {g y : List Piece}

/-- The element put into a comment is not read where it stands. -/
lemma prependToItem_hidden (hg : Grouped t u o k b z) (hb : b = g ++ .literal (m ++ '\n' :: m') :: y)
    (hgt : Trivial g) (hblock : ['/', '*'].isPrefixOf m = true)
    (hfront : Layout.front t args first = u.length + 1 + (textOf g).length + (m.length + 1))
    (hpre : Layout.margin t args first <+: m') (hlt : (Layout.margin t args first).length < m'.length)
    {args' : ArgumentList}
    (h : splitArguments (Layout.prependToItem t args first x) u.length = .ok args') :
    args'.items.head?.map (·.span.start) ≠
      some (Layout.front t args first + (Layout.margin t args first).length) := by
  have hpos : Layout.front t args first = (u ++ o :: (textOf g ++ (m ++ ['\n']))).length := by
    rw [hfront]
    simp
    omega
  have htext : t = (u ++ o :: (textOf g ++ (m ++ ['\n']))) ++ (m' ++ (textOf y ++ k :: z)) := by
    rw [hg.text, hb]
    simp [Piece.text]
  rw [Layout.prependToItem_eq, hpos] at h
  rw [hfront]
  generalize Layout.margin t args first = w at hpre hlt h ⊢
  generalize Layout.gap t args = w₁ at h
  obtain ⟨w₂, rfl⟩ := hpre
  rw [htext, insertAt_length] at h
  have hplaced : splitArguments (u ++ o :: (textOf g ++ (m ++ '\n' :: w) ++ (x ++ ',' :: w₁ ++
      (w ++ w₂ ++ (textOf y ++ k :: z))))) u.length = .ok args' := by
    simpa using h
  have hlen : u.length + 1 + (textOf g).length + (m.length + 1) + w.length =
      u.length + 1 + (textOf g ++ (m ++ '\n' :: w)).length := by
    simp
    omega
  have hshort : (m ++ '\n' :: w).length < (m ++ '\n' :: (w ++ w₂)).length := by
    simp only [List.length_append, List.length_cons] at hlt ⊢
    omega
  rw [hlen]
  refine head_start_ne hg hb hgt ?_ ⟨w₂, by simp⟩ hshort hplaced
  obtain ⟨m, rfl⟩ := List.isPrefixOf_iff_prefix.mp hblock
  rfl

lemma inComment_within (hg : Grouped t u o k b z) (hargs : splitArguments t u.length = .ok args)
    (hb : b = g ++ .literal (m ++ '\n' :: m') :: y) (hblock : ['/', '*'].isPrefixOf m = true)
    (hm : m' ≠ []) :
    args.inComment t (u.length + 1 + (textOf g).length + (m.length + 1)) = true := by
  have hpos := List.length_pos_of_ne_nil hm
  refine (hg.inComment_iff hargs).mpr ⟨g, _, y, hb, ?_, by omega, ?_⟩
  · obtain ⟨m, rfl⟩ := List.isPrefixOf_iff_prefix.mp hblock
    rfl
  · rw [List.length_append, List.length_cons]
    omega

end

/-- The element put before all others is read there, as the first of the list, exactly if no comment goes on
over the place. -/
theorem prepend_gains_iff {first : Argument} (h : splitArguments t opener = .ok args)
    (hf : args.items.head? = some first) (hx : StandsAlone x) (hslash : x.getLast? ≠ some '/') :
    ∃ r, Layout.prepend t args x = .ok r ∧
      ((∃ args', splitArguments r opener = .ok args' ∧ Gains t args 0 x r args' ∧
        args'.items.head?.map (·.span.start) =
          some (Layout.front t args first + (Layout.margin t args first).length)) ↔
        args.inComment t (Layout.front t args first) = false) := by
  obtain ⟨ps, hps, rfl⟩ := hx.exists_elemental hslash
  obtain ⟨u, o, k, b, z, hg, rfl, ho, hc, hitems⟩ := splitArguments_iff.mp h
  obtain ⟨rest, hrest⟩ := List.head?_eq_some_iff.mp hf
  rw [hrest] at hitems
  obtain ⟨s, v, hseg, hs, hplace⟩ := argumentsFrom_head hitems
  obtain ⟨y₀, hb⟩ := exists_after_lead hseg
  rcases front_cases hg.lexed hseg hs ho hf (by rw [hplace]) hg.text with
    ⟨g, y, hgy, he, hfront⟩ | ⟨g, m, m', y, hgy, hblock, hfront, hpre, hlt⟩
  · obtain ⟨l, old, pre, post, r, hslot, hlen, hp⟩ := prepend_slot hseg hs hf hg.text hgy he hfront
    obtain ⟨args', hargs', hgains⟩ := hslot.gains hg h hps rfl
    refine ⟨_, hp _, iff_of_true ⟨args', hargs', hgains, ?_⟩ ?_⟩
    · rw [hslot.head_start hg h hps hargs', hlen, hfront, Nat.add_assoc _ (textOf g).length]
    · rw [hfront]
      exact hg.not_inComment h (c := y ++ (core s ++ y₀)) (by rw [hb, hgy, List.append_assoc])
  · rw [hgy, List.append_assoc, List.cons_append] at hb
    have hblock := isPrefixOf_before_newline hblock
    have hgt : Trivial g := Trivial.left (hgy ▸ lead_trivial s)
    refine ⟨_, by rw [Layout.prepend, hf], iff_of_false ?_ ?_⟩
    · rintro ⟨args', hargs', -, hstart⟩
      exact prependToItem_hidden hg hb hgt hblock hfront hpre hlt hargs' hstart
    · rw [Bool.not_eq_false, hfront]
      exact inComment_within hg h hb hblock (List.ne_nil_of_length_pos (Nat.zero_lt_of_lt hlt))

theorem prepend_gains_iff_commented : StandsAlone "c: [1, 2]".toList ∧
    ∃ args first r args', splitArguments commentedList 0 = .ok args ∧ args.items.head? = some first ∧
      args.inComment commentedList (Layout.front commentedList args first) = false ∧
        Layout.prepend commentedList args "c: [1, 2]".toList = .ok r ∧ splitArguments r 0 = .ok args' ∧
          args'.shown r = [(some ['c'], "c: [1, 2]".toList), (none, ['a']), (none, ['b'])] := by
  obtain ⟨r, hr, hread⟩ := prepend_gains_iff commentedList_split rfl standsAlone_labelled (by decide)
  have hout : ArgumentList.inComment commentedList
      ⟨0, 25, [⟨none, ⟨4, 5⟩, ⟨4, 5⟩, some 5⟩, ⟨none, ⟨16, 17⟩, ⟨16, 17⟩, none⟩]⟩ 2 = false := by
    decide +kernel
  obtain ⟨args', hargs', hgains, -⟩ := hread.mpr hout
  refine ⟨standsAlone_labelled, _, _, r, args', commentedList_split, rfl, hout, hr, hargs', ?_⟩
  rw [hgains.shown]
  decide +kernel

def coveredLine : Text := "[\n/*\n*/ a]".toList

/-- The element put first is lost in a comment. -/
theorem not_prepend_gains : ¬∀ t opener args x r, splitArguments t opener = .ok args → args.items ≠ [] →
    StandsAlone x → x.getLast? ≠ some '/' → Layout.prepend t args x = .ok r →
      ∃ args', splitArguments r opener = .ok args' ∧
        (args'.shown r).map (·.2) = x :: (args.shown t).map (·.2) := by
  intro h
  have hsplit : splitArguments coveredLine 0 = .ok ⟨0, 9, [⟨none, ⟨8, 9⟩, ⟨8, 9⟩, none⟩]⟩ := by decide +kernel
  have halone : StandsAlone ['X'] := ⟨⟨0, 2, [⟨none, ⟨1, 2⟩, ⟨1, 2⟩, none⟩]⟩, by decide +kernel, rfl⟩
  have hread : splitArguments "[\n/*\nX,\n*/ a]".toList 0 = .ok ⟨0, 12, [⟨none, ⟨11, 12⟩, ⟨11, 12⟩, none⟩]⟩ := by
    decide +kernel
  obtain ⟨args', hargs', hshown⟩ := h _ _ _ ['X'] "[\n/*\nX,\n*/ a]".toList hsplit (by simp) halone (by decide)
    (by decide +kernel)
  rw [hread] at hargs'
  obtain rfl := Except.ok.inj hargs'
  have hlen := congrArg List.length hshown
  simp [ArgumentList.shown] at hlen

/-- An element put into a list without items is the only one read there, with no comma after it. Comments between
the brackets stay, and nothing changes outside of them. -/
theorem fillEmpty_gains (multi : Bool) (h : splitArguments t opener = .ok args) (hn : args.items = [])
    (hx : StandsAlone x) (hslash : x.getLast? ≠ some '/') : ∃ r args',
      Layout.fillEmpty t args x multi = r ∧ splitArguments r opener = .ok args' ∧
      args'.shown r = [((label? x).map (·.1), x)] ∧ args'.items.map (·.comma) = [none] ∧
      (∃ c₁ c₂ own, args.comments t = .ok (c₁ ++ c₂) ∧ args'.comments r = .ok (c₁ ++ own ++ c₂)) ∧
      r.take (opener + 1) = t.take (opener + 1) ∧ r.drop args'.closer = t.drop args.closer := by
  obtain ⟨ps, hps, rfl⟩ := hx.exists_elemental hslash
  obtain ⟨u, o, k, b, z, hg, rfl, ho, hc, -⟩ := splitArguments_iff.mp h
  obtain ⟨es, hes, hshown⟩ := hg.shown h
  have hnone : args.shown t = [] := by rw [ArgumentList.shown, hn, List.map_nil]
  obtain rfl : es = [] := List.map_eq_nil_iff.mp (hshown.symm.trans hnone)
  obtain ⟨l, old, pre, post, r, hslot, hfill⟩ :=
    fillEmpty_slot u o args.items hg.lexed (trivial_of_contents hes) multi
  obtain ⟨args', hargs', hgains⟩ := hslot.gains hg h hps rfl
  have hone := hgains.shown
  rw [hnone, List.take_nil, List.drop_nil, List.nil_append] at hone
  obtain ⟨item, hitem⟩ : ∃ item, args'.items = [item] := by
    apply List.length_eq_one_iff.mp
    rw [← ArgumentList.shown_length, hone, List.length_singleton]
  have hcomma : item.comma = none := by
    have hends := hgains.endsInComma
    rw [ArgumentList.endsInComma, ArgumentList.endsInComma, hitem, hn] at hends
    simpa using hends
  obtain ⟨hleft, hright⟩ := hg.outside h
  obtain ⟨hleft', hright'⟩ := (hslot.grouped hg hps).outside hargs'
  refine ⟨_, args', ?_, hargs', hone, by rw [hitem, List.map_singleton, hcomma], hgains.comments,
    hleft'.trans hleft.symm, hright'.trans hright.symm⟩
  rw [← hfill, ← hg.text, ← hc, ← ho]

def remarkedList : Text := "f([ // one\n /* two */\n])".toList

theorem fillEmpty_gains_remarked : StandsAlone "c: [1, 2]".toList ∧
    ∃ args r args' c₁ c₂ own, splitArguments remarkedList 2 = .ok args ∧ args.items = [] ∧
      Layout.fillEmpty remarkedList args "c: [1, 2]".toList false = r ∧ splitArguments r 2 = .ok args' ∧
        args'.shown r = [(some ['c'], "c: [1, 2]".toList)] ∧ args'.comments r = .ok (c₁ ++ own ++ c₂) ∧
          c₁ ++ c₂ = ["// one".toList, "/* two */".toList] ∧ r.drop args'.closer = [']', ')'] := by
  have hsplit : splitArguments remarkedList 2 = .ok ⟨2, 22, []⟩ := by decide +kernel
  obtain ⟨r, args', hr, hargs', hshown, -, ⟨c₁, c₂, own, hc, hc'⟩, -, hright⟩ :=
    fillEmpty_gains false hsplit rfl standsAlone_labelled (by decide)
  have hcomments : ArgumentList.comments remarkedList ⟨2, 22, []⟩ = .ok ["// one".toList, "/* two */".toList] := by
    decide +kernel
  refine ⟨standsAlone_labelled, _, r, args', c₁, c₂, own, hsplit, rfl, hr, hargs', ?_, hc', ?_, ?_⟩
  · rw [hshown]
    decide +kernel
  · exact Except.ok.inj (hc.symm.trans hcomments)
  · rw [hright]
    decide +kernel

end PackageInstaller.Manifest
