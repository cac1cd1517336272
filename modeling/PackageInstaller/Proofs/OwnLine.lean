import PackageInstaller.Proofs.Behind
import PackageInstaller.Proofs.ListEdits

/-! An element on a line of its own, and the lines around it: the line of the item before it, with the comment that
ends it, and the lines of the two brackets where there is no item. -/

namespace PackageInstaller.Manifest

open Layout

variable {t x : Text} {args : ArgumentList} {item : Argument} {n opener : Nat}

lemma insertAfter_of_getElem? (hi : args.items[n]? = some item) (x : Text) :
    insertAfter t args n x = .ok (insertAfterItem t args item x) := by
  rw [insertAfter, hi]

/-- A line comment behind an item stays on the line of the item, which nothing else comes to, exactly if no block
comment stands before it after the separator; otherwise it comes to stand behind the new element. -/
theorem insertAfter_keepsLine_iff {g c : Text} (h : splitArguments t opener = .ok args)
    (hm : isMultiline t args = true) (hi : args.items[n]? = some item) (hx : '\n' ∉ x)
    (hrest : restOfLine t item.span.stop = g ++ c) (hg : Gap item g) (hc : ['/', '/'].isPrefixOf c = true) :
    ∃ r, insertAfter t args n x = .ok r ∧
      (KeepsLine t r item ↔ ∀ d ∈ t.slice item.past (item.span.stop + g.length), isIndent d = true) ∧
      (¬KeepsLine t r item → ∃ pos, item.span.stop < pos ∧
        restOfLine r pos = x ++ item.mark ++ restOfLine t item.past) := by
  obtain ⟨a, d, y, k, z, hb⟩ := exists_behind h hi
  have hn := newline_notMem_restOfLine t item.span.stop
  rw [hrest, List.mem_append, not_or] at hn
  refine ⟨_, insertAfter_of_getElem? hi x, ?_⟩
  rcases hb.remark_cases hrest hg ⟨hn.2, .inr hc⟩ with ⟨g', y', rfl, hg', hy⟩ | ⟨d', hd⟩
  · have hslice : t.slice item.past (item.span.stop + (d ++ g').length) = g' := by
      have hend : item.span.stop + (d ++ g').length = (a ++ d).length + g'.length := by
        rw [hb.stop]
        simp
        omega
      rw [hend, hb.past, hb.text, hy, List.append_assoc g', ← List.append_assoc a, slice_length]
    rw [hslice]
    rcases hg'.cases with hindent | ⟨w, m, hw, hindent⟩
    · have hkeeps := hb.keepsLine_of_indent hm hy hindent hc hn.2 hrest x
      exact ⟨iff_of_true hkeeps hindent, fun hloses => absurd hkeeps hloses⟩
    · have hcne : c ≠ [] := by
        rintro rfl
        simp at hc
      obtain ⟨hloses, hline⟩ := hb.moves_comment hm hw hindent hcne hy hrest hx
      refine ⟨iff_of_false hloses fun hall => ?_, fun _ => hline⟩
      exact absurd (hall '/' (by simp [hw])) (by decide)
  · have hkeeps := hb.keepsLine_of_separator hm (by simpa using hd) hrest x
    have hslice : t.slice item.past (item.span.stop + g.length) = [] := by
      rw [Text.slice, hb.past, hb.stop, hd]
      simp
    exact ⟨iff_of_true hkeeps (by simp [hslice]), fun hloses => absurd hkeeps hloses⟩

theorem insertAfter_keepsLine_iff_commented : ∃ args item r, splitArguments commentedList 0 = .ok args ∧
    isMultiline commentedList args = true ∧ args.items[1]? = some item ∧ Gap item [' '] ∧
      insertAfter commentedList args 1 ['c'] = .ok r ∧ KeepsLine commentedList r item ∧
        restOfLine r item.span.stop = ", // two".toList := by
  have hgap : Gap ⟨none, ⟨16, 17⟩, ⟨16, 17⟩, none⟩ [' '] := .bare (.of_indent (by decide))
  have hrest : restOfLine commentedList 17 = [' '] ++ "// two".toList := by decide +kernel
  have hm : isMultiline commentedList
      ⟨0, 25, [⟨none, ⟨4, 5⟩, ⟨4, 5⟩, some 5⟩, ⟨none, ⟨16, 17⟩, ⟨16, 17⟩, none⟩]⟩ = true := by decide +kernel
  obtain ⟨r, hr, hiff, -⟩ := insertAfter_keepsLine_iff (n := 1) (x := ['c']) commentedList_split hm rfl (by decide)
    hrest hgap rfl
  have hkeeps := hiff.mpr (by decide +kernel)
  refine ⟨_, _, r, commentedList_split, hm, rfl, hgap, hr, hkeeps, ?_⟩
  rw [hkeeps.2, hrest]
  rfl

/-- A line comment goes over to the line of the new element. -/
theorem not_insertAfter_keepsLine : ¬∀ t opener args n item x g c r, splitArguments t opener = .ok args →
    isMultiline t args = true → args.items[n]? = some item → '\n' ∉ x → restOfLine t item.span.stop = g ++ c →
      Gap item g → ['/', '/'].isPrefixOf c = true → insertAfter t args n x = .ok r →
        c <:+: restOfLine r item.span.stop := by
  intro h
  have hsplit : splitArguments "[\n a /* b */ // c\n]".toList 0 = .ok ⟨0, 18, [⟨none, ⟨3, 4⟩, ⟨3, 4⟩, none⟩]⟩ := by
    decide +kernel
  have hgap : Gap ⟨none, ⟨3, 4⟩, ⟨3, 4⟩, none⟩ " /* b */ ".toList :=
    .bare (.indent rfl (@Filler.comment "/* b */".toList [' '] (by decide +kernel) rfl (by decide)
      (.of_indent (by decide))))
  have hlost := h _ _ _ 0 _ ['X'] " /* b */ ".toList "// c".toList "[\n a,\n X /* b */ // c\n]".toList hsplit
    (by decide +kernel) rfl (by decide) (by decide +kernel) hgap rfl (by decide +kernel)
  have hlen := hlost.length_le
  exact absurd hlen (by decide +kernel)

lemma lineIndent_start {above : List Text} {w : Text} (h : splitArguments t opener = .ok args)
    (hi : args.items[n]? = some item) (habove : rows (t.take item.span.start) = above ++ [w]) :
    lineIndent t item.span.start = w.takeWhile isIndent := by
  obtain ⟨u, v, rfl, hstart, hv⟩ := exists_start h hi
  rw [hstart, List.take_left] at habove
  rw [hstart, lineIndent_rows habove, takeWhile_append_head w hv]

lemma indentUnit_eq (w : Text) : indentUnit w = if w.head? = some '\t' then ['\t'] else [' ', ' ', ' ', ' '] := by
  cases w with
  | nil => rfl
  | cons c w =>
    by_cases hc : c = '\t'
    · rw [hc]
      rfl
    · rw [if_neg (by simpa using hc), indentUnit]
      simpa using hc

/-- The element comes on the line below the one where the item ends, and the blanks `v` at the end of that line
with it. -/
lemma insertAfter_rows {above : List Text} {w : Text} (h : splitArguments t opener = .ok args) (hx : '\n' ∉ x)
    (hm : isMultiline t args = true) (hi : args.items[n]? = some item)
    (habove : rows (t.take item.span.start) = above ++ [w]) (he : Ending item (restOfLine t item.span.stop)) :
    ∃ r before front q v after, insertAfter t args n x = .ok r ∧ rows (t.take item.span.stop) = before ++ [front] ∧
      restOfLine t item.span.stop = q ++ v ∧ (∀ c ∈ v, isIndent c = true) ∧
      rows t = before ++ (front ++ (q ++ v)) :: after ∧ rows r = before ++ (front ++ (item.gain ++ q)) ::
        (w.takeWhile isIndent ++ x ++ item.mark ++ v) :: after := by
  obtain ⟨a, d, y, k, z, hb⟩ := exists_behind h hi
  obtain ⟨before, front, hfront⟩ := exists_rows_eq_concat a
  obtain ⟨b, c, y', hbl, hc, hrest, hy⟩ := hb.exists_remark he rfl
  obtain ⟨q, v, hqv, hv, hpos⟩ := hb.exists_stays hbl hc hy
  have hn := newline_notMem_restOfLine t item.span.stop
  rw [hrest, hqv] at hn
  simp only [List.mem_append, not_or] at hn
  obtain ⟨hnd, hnq, hnv⟩ := hn
  have hnf := (rows_eq_concat hfront).1
  have hbehind : textOf y ++ k :: z = q ++ (v ++ '\n' :: (y' ++ k :: z)) := by
    rw [hy, ← List.append_assoc q, ← hqv]
    simp
  have hnw : '\n' ∉ w.takeWhile isIndent := newline_notMem_indent fun _ hc => List.mem_takeWhile_imp hc
  refine ⟨_, before, front, d ++ q, v, rows (y' ++ k :: z), insertAfter_of_getElem? hi x, ?_, ?_, hv, ?_, ?_⟩
  · rw [hb.stop, hb.text, List.take_left, hfront]
  · rw [hrest, hqv, List.append_assoc]
  · have hline : '\n' ∉ front ++ (d ++ q ++ v) := by simpa using ⟨hnf, hnd, hnq, hnv⟩
    rw [← rows_line hline, hb.text, hbehind, rows_append hfront]
    simp
  · have hline : '\n' ∉ front ++ (item.gain ++ (d ++ q)) := by simpa using ⟨hnf, gain_notMem item, hnd, hnq⟩
    have hbelow : '\n' ∉ w.takeWhile isIndent ++ x ++ item.mark ++ v := by
      simp only [List.mem_append, not_or]
      exact ⟨⟨⟨hnw, hx⟩, mark_notMem item⟩, hnv⟩
    rw [hb.insertAfterItem_eq hm hbehind hpos x, lineIndent_start h hi habove, List.append_assoc a,
      rows_append hfront, ← rows_line hbelow, ← rows_line hline]
    simp

namespace Grouped

variable {u z : Text} {o k : Char} {b : List Piece} (hg : Grouped t u o k b z)

include hg

lemma lineIndent_opener {before : List Text} {head : Text} (hhead : rows u = before ++ [head]) :
    lineIndent t u.length = head.takeWhile isIndent := by
  have hsolid := (not_blank_of_closerOf? hg.brackets).1
  have hindent : isIndent o = false := by
    by_contra ho
    simp [isBlank_of_isIndent (Bool.of_not_eq_false ho)] at hsolid
  rw [hg.text, lineIndent_rows hhead, takeWhile_append_stop hindent]

lemma fillEmpty_eq {multi : Bool} (h : splitArguments t u.length = .ok args)
    (hblank : ∀ c ∈ textOf b, Text.isBlank c = true) (hmulti : multi = true ∨ '\n' ∈ textOf b) {w : Text}
    (hw : lineIndent t u.length = w) : fillEmpty t args x multi =
      u ++ ([o] ++ '\n' :: (w ++ indentUnit w ++ x ++ '\n' :: (w ++ k :: z))) := by
  obtain ⟨ho, hc, -⟩ := hg.items h
  obtain ⟨htake, hdrop⟩ := hg.outside h
  rw [hc] at hdrop
  have hkeep : (!(textOf b).all Text.isBlank) = false := by simpa using hblank
  have hspread : (multi || (textOf b).elem '\n') = true := by simpa using hmulti
  simp only [fillEmpty, ho, hdrop, htake, hw, hc, hg.slice, hkeep, hspread]
  simp

end Grouped

lemma newline_notMem_indentUnit (w : Text) : '\n' ∉ indentUnit w := by
  rw [indentUnit_eq]
  split_ifs <;> decide

/-- The element of an empty list comes on a line between that of the opening bracket and that of the closing one. -/
lemma fillEmpty_rows {multi : Bool} (h : splitArguments t opener = .ok args) (hx : '\n' ∉ x)
    (hblank : ∀ c ∈ t.slice (opener + 1) args.closer, Text.isBlank c = true)
    (hmulti : multi = true ∨ '\n' ∈ t.slice (opener + 1) args.closer) :
    ∃ o before head last after, t[opener]? = some o ∧ rows (t.take opener) = before ++ [head] ∧
      rows (t.drop args.closer) = last :: after ∧ rows (fillEmpty t args x multi) = before ++ (head ++ [o]) ::
        (head.takeWhile isIndent ++ indentUnit (head.takeWhile isIndent) ++ x) ::
          (head.takeWhile isIndent ++ last) :: after := by
  obtain ⟨u, o, k, b, z, hg, rfl, -, hc, -⟩ := splitArguments_iff.mp h
  obtain ⟨before, head, hhead⟩ := exists_rows_eq_concat u
  obtain ⟨last, after, hlast⟩ := List.exists_cons_of_ne_nil (rows_ne_nil (k :: z))
  rw [hc, hg.slice] at hblank hmulti
  have hn : '\n' ∉ head.takeWhile isIndent := newline_notMem_indent fun _ hc => List.mem_takeWhile_imp hc
  have hopen : '\n' ∉ head ++ [o] := by
    rw [List.mem_append, List.mem_singleton, not_or]
    refine ⟨(rows_eq_concat hhead).1, ?_⟩
    rintro rfl
    exact absurd (not_blank_of_closerOf? hg.brackets).1 (by decide)
  have hline : '\n' ∉ head.takeWhile isIndent ++ indentUnit (head.takeWhile isIndent) ++ x := by
    simp only [List.mem_append, not_or]
    exact ⟨⟨hn, newline_notMem_indentUnit _⟩, hx⟩
  refine ⟨o, before, head, last, after, by rw [hg.text]; simp, by rw [hg.text, List.take_left, hhead],
    by rw [(hg.outside h).2, hlast], ?_⟩
  rw [hg.fillEmpty_eq h hblank hmulti (hg.lineIndent_opener hhead), rows_append hhead, ← List.append_assoc head,
    rows_line hopen, rows_line hline, rows_append_left hn hlast]

/-- An element has a line of its own. After an item of a list that spreads over lines this is the line below the one
where the item ends, with the blanks that the first line of the item begins with. Otherwise only the item gains its
separator, and the blanks `v` that ended its line go over to the line below. In a list with nothing but blanks the
element stands between the line of the opening bracket and that of the closing one, one unit to the right. -/
theorem element_on_own_line (h : splitArguments t opener = .ok args) (hx : '\n' ∉ x) :
    (∀ n item above w, isMultiline t args = true → args.items[n]? = some item →
      rows (t.take item.span.start) = above ++ [w] → Ending item (restOfLine t item.span.stop) →
        ∃ r before front q v after, insertAfter t args n x = .ok r ∧
          rows (t.take item.span.stop) = before ++ [front] ∧
          restOfLine t item.span.stop = q ++ v ∧ (∀ c ∈ v, isIndent c = true) ∧
          rows t = before ++ (front ++ (q ++ v)) :: after ∧ rows r = before ++ (front ++ (item.gain ++ q)) ::
            (w.takeWhile isIndent ++ x ++ item.mark ++ v) :: after) ∧
    ∀ multi, (∀ c ∈ t.slice (opener + 1) args.closer, Text.isBlank c = true) →
      (multi = true ∨ '\n' ∈ t.slice (opener + 1) args.closer) →
        ∃ o before head w unit last after, t[opener]? = some o ∧ rows (t.take opener) = before ++ [head] ∧
          w = head.takeWhile isIndent ∧ unit = (if w.head? = some '\t' then ['\t'] else [' ', ' ', ' ', ' ']) ∧
          rows (t.drop args.closer) = last :: after ∧
          rows (fillEmpty t args x multi) =
            before ++ (head ++ [o]) :: (w ++ unit ++ x) :: (w ++ last) :: after := by
  refine ⟨fun n item above w hm hi habove he => insertAfter_rows h hx hm hi habove he, ?_⟩
  intro multi hblank hmulti
  obtain ⟨o, before, head, last, after, ho, hhead, hlast, hrows⟩ := fillEmpty_rows h hx hblank hmulti
  exact ⟨o, before, head, _, _, last, after, ho, hhead, rfl, indentUnit_eq _, hlast, hrows⟩

def tabbedList : Text := "\tf([\n])".toList

theorem element_on_own_line_tabbed : '\n' ∉ ['c'] ∧
    (∃ args item r before front q v after, splitArguments commentedList 0 = .ok args ∧
      isMultiline commentedList args = true ∧ args.items[1]? = some item ∧
        rows (commentedList.take item.span.start) = ["[".toList, "  a, // one".toList] ++ ["  ".toList] ∧
          Ending item (restOfLine commentedList item.span.stop) ∧ insertAfter commentedList args 1 ['c'] = .ok r ∧
            rows r = before ++ (front ++ ([','] ++ q)) :: ("  c".toList ++ v) :: after) ∧
    ∃ args, splitArguments tabbedList 3 = .ok args ∧
      (∀ c ∈ tabbedList.slice 4 args.closer, Text.isBlank c = true) ∧ '\n' ∈ tabbedList.slice 4 args.closer ∧
        rows (fillEmpty tabbedList args ['c'] false) = ["\tf([".toList, "\t\tc".toList, "\t])".toList] := by
  have hx : '\n' ∉ ['c'] := by decide
  refine ⟨hx, ?_, ?_⟩
  · have hm : isMultiline commentedList
        ⟨0, 25, [⟨none, ⟨4, 5⟩, ⟨4, 5⟩, some 5⟩, ⟨none, ⟨16, 17⟩, ⟨16, 17⟩, none⟩]⟩ = true := by decide +kernel
    have habove : rows (commentedList.take 16) = ["[".toList, "  a, // one".toList] ++ ["  ".toList] := by
      decide +kernel
    have hrest : restOfLine commentedList 17 = [' '] ++ "// two".toList := by decide +kernel
    have he : Ending ⟨none, ⟨16, 17⟩, ⟨16, 17⟩, none⟩ (restOfLine commentedList 17) := by
      rw [hrest]
      exact .bare rfl (by decide) ⟨by decide, .inr rfl⟩
    obtain ⟨r, before, front, q, v, after, hr, -, -, -, -, hrows⟩ :=
      (element_on_own_line commentedList_split hx).1 1 _ _ _ hm rfl habove he
    exact ⟨_, _, r, before, front, q, v, after, commentedList_split, hm, rfl, habove, he, hr, hrows⟩
  · have hsplit : splitArguments tabbedList 3 = .ok ⟨3, 5, []⟩ := by decide +kernel
    have hblank : ∀ c ∈ tabbedList.slice 4 5, Text.isBlank c = true := by decide +kernel
    have hspread : '\n' ∈ tabbedList.slice 4 5 := by decide +kernel
    obtain ⟨o, before, head, w, unit, last, after, ho, hhead, rfl, rfl, hlast, hrows⟩ :=
      (element_on_own_line hsplit hx).2 false hblank (.inr hspread)
    have hopen : rows (tabbedList.take 3) = [] ++ ["\tf(".toList] := by decide +kernel
    have hclose : rows (tabbedList.drop 5) = "])".toList :: [] := by decide +kernel
    obtain ⟨rfl, hhead⟩ := List.append_inj' (hopen.symm.trans hhead) rfl
    obtain rfl := List.singleton_inj.mp hhead
    obtain ⟨rfl, rfl⟩ := List.cons.inj (hclose.symm.trans hlast)
    have hbracket : tabbedList[3]? = some '[' := by decide +kernel
    obtain rfl := Option.some.inj (hbracket.symm.trans ho)
    refine ⟨_, hsplit, hblank, hspread, hrows.trans ?_⟩
    decide +kernel

end PackageInstaller.Manifest
