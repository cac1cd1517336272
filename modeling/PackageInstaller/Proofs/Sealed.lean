import PackageInstaller.Proofs.Layout
import PackageInstaller.Proofs.Partition
import PackageInstaller.Proofs.Rendered

/-! A value does not get out of the quotes it is written in, and a declaration that is put into a list is read as the
one that was written, whatever its URL and its version hold. -/

namespace PackageInstaller.Manifest

open StringLiteral

/-- The text with another element in the place of a span. -/
def exchangeAt (t : Text) (span : Span) (element : Text) : Text :=
  t.take span.start ++ element ++ t.drop span.stop

def exactWord : Text := ".exact".toList

def urlArgument (reference : Reference) : List Piece :=
  chars "url: ".toList ++ [.literal (encode reference.url)]

def requirementArgument (reference : Reference) : List Piece :=
  chars exactWord ++ .char '(' :: ([.literal (encode reference.version)] ++ [.char ')'])

/-- The span holds a package declaration with two arguments: the URL under its label, and the requirement, which is
`.exact(…)` around the version. -/
structure DeclaresExactly (t : Text) (span : Span) (reference : Reference) (decl inner : ArgumentList)
    (url requirement version : Argument) : Prop where
  declaration : isPackageDeclaration t span = true
  arguments : declarationArguments? t span = .ok (some decl)
  read : declarationUrl? t span = .ok (some reference.url)
  whole : decl.closer + 1 = span.stop
  items : decl.items = [url, requirement]
  label : url.label = some urlLabel
  value : valueAt? t url.value = some reference.url
  unlabelled : requirement.label = none
  word : t.slice requirement.value.start inner.opener = exactWord
  inside : splitArguments t inner.opener = .ok inner
  closed : inner.closer + 1 = requirement.value.stop
  single : inner.items = [version]
  bare : version.label = none
  exact : valueAt? t version.value = some reference.version

variable {t u z p s v : Text} {i j : Nat} {o k : Char} {b c g r x : List Piece} {left right : List (List Piece)}
  {reference : Reference}

lemma decodeBody?_encode_newline (h : '\n' ∈ v) (z : Text) : decodeBody? (v.flatMap encodeChar ++ z) = none := by
  induction v with
  | nil => simp at h
  | cons c v ih =>
    rw [List.flatMap_cons, List.append_assoc, encodeChar]
    by_cases hc : c = '\n'
    · subst hc
      rw [if_neg (by decide), List.singleton_append]
      rw [decodeBody?] <;> simp
    · have hrest := ih ((List.mem_cons.mp h).resolve_left (Ne.symm hc))
      split_ifs with hq
      · change decodeBody? ('\\' :: c :: (v.flatMap encodeChar ++ z)) = none
        rw [decodeBody?, if_neg hc, hrest]
        rfl
      · rw [not_or] at hq
        rw [List.singleton_append, decodeBody?_cons hq.1 hq.2 hc, hrest]
        rfl

lemma slice_encode (p v s : Text) :
    (p ++ encode v ++ s).slice p.length (p.length + (encode v).length) = encode v := slice_mid p (encode v) s

lemma encode_read (hv : '\n' ∉ v) (hs : v = [] → s.head? ≠ some '"') :
    skipLiteral? (p ++ encode v ++ s) p.length = .ok (some (p.length + (encode v).length)) ∧
      valueAt? (p ++ encode v ++ s) ⟨p.length, p.length + (encode v).length⟩ = some v := by
  constructor
  · refine skipLiteral?_eq_some.mpr ⟨_, ?_, rfl⟩
    rw [List.append_assoc, List.drop_left]
    exact literalLength?_encode hv hs
  · rw [valueAt?, slice_encode, decode?_encode hv]

lemma encode_unread (hv : '\n' ∈ v) :
    (∃ e, skipLiteral? (p ++ encode v ++ s) p.length = .error e ∧ e.isStructural = true) ∧
      valueAt? (p ++ encode v ++ s) ⟨p.length, p.length + (encode v).length⟩ = none := by
  constructor
  · refine ⟨.unterminatedString p.length, ?_, rfl⟩
    rw [skipLiteral?, List.append_assoc, List.drop_left, literalLength?_encode_newline hv]
    rfl
  · rw [valueAt?, slice_encode]
    exact decodeBody?_encode_newline hv ['"']

lemma joined_balanced {segs : List (List Piece)} (h : ∀ s ∈ segs, Segment s) : Balanced (joined segs) := by
  induction segs with
  | nil => exact .nil
  | cons s rest ih =>
    rw [List.forall_mem_cons] at h
    by_cases hrest : rest = []
    · rw [hrest]
      exact h.1.balanced
    · have hcomma : Balanced [comma] := rfl
      rw [joined_cons hrest]
      exact h.1.balanced.append (hcomma.append (ih h.2))

/-- The body of a list with an element, and blanks and comments on either side of it, between other segments. -/
def seating (left : List (List Piece)) (g x r : List Piece) (right : List (List Piece)) : List Piece :=
  joined (left ++ (g ++ x ++ r) :: right)

lemma seating_eq (left : List (List Piece)) (g x r : List Piece) (right : List (List Piece)) :
    seating left g x r right = leading left ++ g ++ (x ++ (r ++ following right)) := by
  rw [seating, joined_mid]
  simp only [List.append_assoc]

/-- An item of a list, with the segments around it. -/
structure Seat (t u : Text) (o k : Char) (z : Text) (left : List (List Piece)) (g c r : List Piece)
    (right : List (List Piece)) : Prop where
  grouped : Grouped t u o k (seating left g c r right) z
  segments : segments (seating left g c r right) = left ++ (g ++ c ++ r) :: right
  before : Trivial g
  after : Trivial r
  line : EndsLine g []
  solid : Solid c
  ne_nil : c ≠ []
  inhabited : ∀ s ∈ left, core s ≠ []

section Exchange

variable (h : Seat t u o k z left g c r right) (hx : Elemental x)
include h

lemma Seat.text_exchanged (x : List Piece) :
    exchangeAt t ⟨u.length + 1 + (textOf (leading left ++ g)).length,
      u.length + 1 + (textOf (leading left ++ g)).length + (textOf c).length⟩ (textOf x) =
        u ++ o :: (textOf (seating left g x r right) ++ k :: z) := by
  have htext : t = (u ++ o :: textOf (leading left ++ g)) ++
      (textOf c ++ (textOf (r ++ following right) ++ k :: z)) := by
    rw [h.grouped.text, seating_eq]
    simp
  have hlen : (u ++ o :: textOf (leading left ++ g)).length = u.length + 1 + (textOf (leading left ++ g)).length := by
    simp only [List.length_append, List.length_cons]
    omega
  rw [seating_eq, exchangeAt, ← hlen, htext]
  simp only [List.take_left, ← List.drop_drop, List.drop_left]
  simp

include hx

lemma Seat.segment_exchanged : ∀ s ∈ left ++ (g ++ x ++ r) :: right, Segment s := by
  have hall : ∀ s ∈ left ++ (g ++ c ++ r) :: right, Segment s :=
    h.segments ▸ fun s hs => segment_of_mem h.grouped.balanced hs
  intro s hs
  rcases List.mem_append.mp hs with hs | hs
  · exact hall s (List.mem_append_left _ hs)
  · rcases List.mem_cons.mp hs with rfl | hs
    · exact (h.before.segment.append hx.segment).append h.after.segment
    · exact hall s (List.mem_append_right _ (List.mem_cons_of_mem _ hs))

lemma Seat.segments_exchanged : Manifest.segments (seating left g x r right) = left ++ (g ++ x ++ r) :: right :=
  segments_joined (by simp) (h.segment_exchanged hx)

lemma Seat.lexed_exchanged : LexedBefore (k :: z) (seating left g x r right) := by
  have hl := h.grouped.lexed
  rw [seating_eq] at hl
  obtain ⟨hfront, hl⟩ := lexedBefore_append.mp hl
  obtain ⟨-, hback⟩ := lexedBefore_append.mp hl
  have hplain := plain_of_closerOf? h.grouped.brackets
  have hhead : (textOf (r ++ following right) ++ k :: z).head? ≠ some '"' ∧
      (textOf (r ++ following right) ++ k :: z).head? ≠ some '#' := by
    cases right with
    | nil => simpa [following] using head_trivial z h.after hplain.2
    | cons s right =>
      have hcomma : Plain ',' := by decide
      simpa [following, comma, Piece.text] using head_trivial (textOf (s ++ following right) ++ k :: z) h.after hcomma
  rw [seating_eq]
  refine lexedBefore_append.mpr ⟨hfront.rejoin fun q hq => ?_, lexedBefore_append.mpr ⟨?_, hback⟩⟩
  · have hlast : (.char o :: (leading left ++ g ++ chars [])).getLast? = some q := by
      rw [chars, List.map_nil, List.append_nil, List.getLast?_cons, hq]
      rfl
    exact joins_leading hplain.1 h.before h.line nil_blank hlast _
  · exact hx.lexed hhead.1 hhead.2

lemma Seat.grouped_exchanged : Grouped (u ++ o :: (textOf (seating left g x r right) ++ k :: z)) u o k
    (seating left g x r right) z :=
  ⟨rfl, h.grouped.brackets, joined_balanced (h.segment_exchanged hx), h.lexed_exchanged hx⟩

lemma Seat.between_exchanged : Between (u ++ o :: (textOf (seating left g x r right) ++ k :: z))
    (u.length + 1 + (textOf (leading left ++ g)).length)
    (u.length + 1 + (textOf (leading left ++ g)).length + (textOf x).length) x := by
  have hbody := (h.grouped_exchanged hx).between.2.1
  generalize u ++ o :: (textOf (seating left g x r right) ++ k :: z) = t' at hbody ⊢
  rw [seating_eq] at hbody
  obtain ⟨m, hfront, hrest⟩ := hbody.split
  obtain ⟨n, hx', -⟩ := hrest.split
  rw [← hfront.stop, ← hx'.stop]
  exact hx'

lemma Seat.contents_exchanged {cs : List (List Piece)} (hcs : contents (seating left g c r right) = some cs) :
    contents (seating left g x r right) = some (cs.set left.length x) := by
  have hcore := (lead_core_eq h.before h.solid h.ne_nil h.after).2
  have hcore' := (hx.core_eq h.before h.after).2
  rw [contents, h.segments, entries_append h.inhabited, entries_cons_of_core (by rw [hcore]; exact h.ne_nil), hcore] at hcs
  obtain ⟨rest, hrest, rfl⟩ := Option.map_eq_some_iff.mp hcs
  obtain ⟨later, hlater, rfl⟩ := Option.map_eq_some_iff.mp hrest
  rw [contents, h.segments_exchanged hx, entries_append h.inhabited,
    entries_cons_of_core (by rw [hcore']; exact hx.ne_nil), hcore', hlater]
  simp

end Exchange

lemma argumentsFrom_mid {s : List Piece} {pos : Nat} {items : List Argument} (hs : core s ≠ [])
    (h : argumentsFrom pos (left ++ s :: right) = .ok items) : ∃ separator, items[left.length]? =
      some (argumentAt (pos + (textOf (leading left ++ lead s)).length) (core s) separator) := by
  induction left generalizing pos items with
  | nil =>
    by_cases hright : right = []
    · subst hright
      rw [List.nil_append, argumentsFrom, if_neg hs] at h
      obtain rfl := Except.ok.inj h
      exact ⟨none, rfl⟩
    · rw [List.nil_append, argumentsFrom_cons hright, if_neg hs] at h
      obtain ⟨later, -, rfl⟩ := map_eq_ok.mp h
      exact ⟨_, rfl⟩
  | cons q left ih =>
    rw [List.cons_append, argumentsFrom_cons (by simp)] at h
    split_ifs at h
    obtain ⟨later, hlater, rfl⟩ := map_eq_ok.mp h
    obtain ⟨separator, hget⟩ := ih hlater
    have hpos : pos + (textOf q).length + 1 + (textOf (leading left ++ lead s)).length =
        pos + (textOf (leading (q :: left) ++ lead s)).length := by
      simp [leading, comma, Piece.text]
      omega
    rw [hpos] at hget
    exact ⟨separator, by rwa [List.length_cons, List.getElem?_cons_succ]⟩

lemma exists_seat {opener : Nat} {args : ArgumentList} {before after : List Argument} {item : Argument}
    (hargs : splitArguments t opener = .ok args) (hitems : args.items = before ++ item :: after) :
    ∃ u o k z left g c r right, Seat t u o k z left g c r right ∧ opener = u.length ∧ before.length = left.length ∧
      item.span = ⟨u.length + 1 + (textOf (leading left ++ g)).length,
        u.length + 1 + (textOf (leading left ++ g)).length + (textOf c).length⟩ := by
  obtain ⟨u, o, k, b, z, h, rfl, -, -, hi⟩ := splitArguments_iff.mp hargs
  obtain ⟨cs, hcs, -⟩ := h.shown hargs
  rw [hitems] at hi
  obtain ⟨left, s, right, hseg, hbefore, hs, hitem⟩ := argumentsFrom_split hi
  obtain ⟨r, hr, hrt⟩ := exists_trail s
  have hseg' : segments b = left ++ (lead s ++ core s ++ r) :: right := by rw [← hr, hseg]
  have hb : b = seating left (lead s) (core s) r right := by rw [seating, ← hseg', joined_segments]
  have hinhabited : ∀ q ∈ left, core q ≠ [] := by
    rw [contents, hseg] at hcs
    exact core_ne_nil_of_entries hcs (List.cons_ne_nil _ _)
  have hline : EndsLine (lead s) [] := by
    have hl := h.lexed
    rw [hb, seating_eq, List.append_assoc] at hl
    exact endsLine_lead (lexedBefore_append.mp hl).2 hs
  refine ⟨u, o, k, z, left, lead s, core s, r, right, ?_, rfl, hbefore.length_eq, ?_⟩
  · rw [hb] at h hseg'
    exact ⟨h, hseg', lead_trivial s, hrt, hline, core_solid s, hs, hinhabited⟩
  · rw [hitem, argumentAt, textOf_append, List.length_append, Nat.add_assoc (u.length + 1)]

/-- An element in the place of another one is read as the item that stood there was. -/
theorem exchange_item {opener : Nat} {args : ArgumentList} {before after : List Argument} {item : Argument}
    (hx : Elemental x) (hargs : splitArguments t opener = .ok args) (hitems : args.items = before ++ item :: after) :
    ∃ args' separator, splitArguments (exchangeAt t item.span (textOf x)) opener = .ok args' ∧
      args'.shown (exchangeAt t item.span (textOf x)) = (args.shown t).set before.length (entry x) ∧
      args'.items[before.length]? = some (argumentAt item.span.start x separator) ∧
      Between (exchangeAt t item.span (textOf x)) item.span.start (item.span.start + (textOf x).length) x := by
  obtain ⟨u, o, k, z, left, g, c, r, right, h, rfl, hlength, hspan⟩ := exists_seat hargs hitems
  obtain ⟨cs, hcs, hshown⟩ := h.grouped.shown hargs
  have hgroup := h.grouped_exchanged hx
  have hcs' := h.contents_exchanged hx hcs
  obtain ⟨args', hargs'⟩ := hgroup.arguments hcs'
  obtain ⟨cs', hread, hshown'⟩ := hgroup.shown hargs'
  obtain rfl := Option.some.inj (hcs'.symm.trans hread)
  obtain ⟨hlead, hcore⟩ := hx.core_eq h.before h.after
  obtain ⟨-, -, hitems'⟩ := hgroup.items hargs'
  rw [h.segments_exchanged hx] at hitems'
  obtain ⟨separator, hget⟩ := argumentsFrom_mid (by rw [hcore]; exact hx.ne_nil) hitems'
  rw [hlead, hcore] at hget
  rw [hspan, h.text_exchanged, hlength]
  refine ⟨args', separator, hargs', ?_, hget, h.between_exchanged hx⟩
  rw [hshown', hshown, List.map_set]

lemma Between.value_encode (h : Between t i j c) (separator : Option Nat) (hv : '\n' ∉ v)
    (hc : valueOf c = [.literal (encode v)]) :
    StringLiteral.valueAt? t (argumentAt i c separator).value = some v := by
  have hvalue := h.value separator
  rw [hc] at hvalue
  exact hvalue.valueAt?.trans (stringOf_encode hv)

lemma Between.call {w : Text} (h : Between t i j (chars w ++ .char '(' :: (b ++ [.char ')']))) (hb : Balanced b) :
    ∃ n, Between t (i + w.length + 1) n b ∧ n + 1 = j ∧ t.slice i (i + w.length) = w ∧
      splitArguments t (i + w.length) = (argumentsFrom (i + w.length + 1) (segments b)).map fun items =>
        ⟨i + w.length, n, items⟩ := by
  obtain ⟨m, hword, hrest⟩ := h.split
  obtain ⟨e, hopen, hrest⟩ := hrest.split_cons
  obtain ⟨-, hparen, rfl⟩ := hopen.skip_char
  obtain ⟨n, hin, hclose⟩ := hrest.split
  obtain ⟨-, hcloser, rfl⟩ := hclose.skip_char
  have hslice := hword.slice
  have hm := hword.stop
  rw [textOf_chars] at hslice hm
  subst hm
  exact ⟨n, hin, rfl, hslice, splitArguments_of_body rfl hin hb hcloser hparen⟩

lemma joined_declarationArguments (reference : Reference) : declarationArguments reference =
    urlArgument reference ++ ([comma, .char ' '] ++ requirementArgument reference) := rfl

lemma declarationUrl?_labelled {span : Span} {decl : ArgumentList} {url : Argument} {rest : List Argument}
    (hdecl : declarationArguments? t span = .ok (some decl)) (hitems : decl.items = url :: rest)
    (hlabel : url.label = some urlLabel) (hv : StringLiteral.valueAt? t url.value = some v) :
    declarationUrl? t span = .ok (some v) := by
  have hfind : decl.find? urlLabel = some url := by
    rw [ArgumentList.find?, hitems, List.find?_cons_of_pos (by simp [hlabel])]
  rw [declarationUrl?, hdecl]
  simp only [bind, Except.bind, hfind, Option.some_or, Option.bind_some, hv]
  rfl

lemma Between.declaresExactly (h : Between t i j (declarationElement reference)) (hu : '\n' ∉ reference.url)
    (hv : '\n' ∉ reference.version) : ∃ decl inner url requirement version,
      DeclaresExactly t ⟨i, j⟩ reference decl inner url requirement version := by
  have hslice : t.slice i j = textOf (declarationElement reference) := by rw [h.stop, h.slice]
  have hlength : declarationLength? (t.slice i j) = some 9 := by rw [hslice]; rfl
  obtain ⟨n, hargs, hstop, -, hsplit⟩ := Between.call (w := ".package".toList) h (declarationArguments_balanced reference)
  rw [joined_declarationArguments] at hargs
  obtain ⟨e, hurl, hrest⟩ := hargs.split
  obtain ⟨s, hgap, hrequirement⟩ := hrest.split
  obtain rfl : s = e + 2 := hgap.stop
  obtain ⟨m, hversion, hclosed, hword, hinner⟩ := hrequirement.call (b := [.literal (encode reference.version)]) rfl
  have harguments : declarationArguments? t ⟨i, j⟩ = .ok (some ⟨i + 8, n,
      [argumentAt (i + 9) (urlArgument reference) (some e), argumentAt (e + 2) (requirementArgument reference) none]⟩) := by
    rw [declarationArguments?, hlength, show e = i + 9 + (textOf (urlArgument reference)).length from hurl.stop]
    exact congrArg (Except.map some) hsplit
  have hvalue := hurl.value_encode (some e) hu rfl
  have hwhole : (argumentAt (e + 2) (requirementArgument reference) none).value = ⟨e + 2, _⟩ := argumentAt_unlabelled rfl
  refine ⟨_, ⟨e + 8, m, [argumentAt (e + 9) [.literal (encode reference.version)] none]⟩, _, _, _, ?_, harguments, ?_,
    hstop, rfl, rfl, hvalue, rfl, ?_, hinner, ?_, rfl, rfl, ?_⟩
  · rw [isPackageDeclaration, hlength, Option.isSome_some]
  · exact declarationUrl?_labelled harguments rfl rfl hvalue
  · rw [hwhole]
    exact hword
  · rw [hclosed, hwhole]
    exact hrequirement.stop
  · exact hversion.value_encode none hv rfl

/-- What is written for a value of one line is one literal, and the value is read from it; for a value of several lines it
is none. A declaration that is put in the place of an item of a list is one item without a label there, with the other
items as they were, and its URL and its version are read from it. -/
theorem encode_sealed :
    (∀ v p s, '\n' ∉ v → (v = [] → s.head? ≠ some '"') →
      skipLiteral? (p ++ encode v ++ s) p.length = .ok (some (p.length + (encode v).length)) ∧
        valueAt? (p ++ encode v ++ s) ⟨p.length, p.length + (encode v).length⟩ = some v) ∧
    (∀ v p s, '\n' ∈ v →
      (∃ e, skipLiteral? (p ++ encode v ++ s) p.length = .error e ∧ e.isStructural = true) ∧
        valueAt? (p ++ encode v ++ s) ⟨p.length, p.length + (encode v).length⟩ = none) ∧
    ∀ reference t opener args before item after, '\n' ∉ reference.url → '\n' ∉ reference.version →
      splitArguments t opener = .ok args → args.items = before ++ item :: after →
        ∃ args' item', splitArguments (exchangeAt t item.span (renderDeclaration reference)) opener = .ok args' ∧
          args'.shown (exchangeAt t item.span (renderDeclaration reference)) =
            (args.shown t).set before.length (none, renderDeclaration reference) ∧
          args'.items[before.length]? = some item' ∧ item'.label = none ∧ item'.value = item'.span ∧
          item'.span = ⟨item.span.start, item.span.start + (renderDeclaration reference).length⟩ ∧
          ∃ decl inner url requirement version, DeclaresExactly
            (exchangeAt t item.span (renderDeclaration reference)) item'.value reference decl inner url requirement
              version := by
  refine ⟨fun v p s => encode_read, fun v p s => encode_unread, ?_⟩
  intro reference t opener args before item after hu hv hargs hitems
  have hx : Elemental (declarationElement reference) := (insertable_declaration hu hv).toElemental
  obtain ⟨args', separator, hargs', hshown, hget, hplace⟩ := exchange_item hx hargs hitems
  have hlabel : (argumentAt item.span.start (declarationElement reference) separator).label = none := rfl
  have hvalue := argumentAt_unlabelled hlabel
  have hentry : entry (declarationElement reference) = (none, textOf (declarationElement reference)) := rfl
  have hspan : (argumentAt item.span.start (declarationElement reference) separator).span =
      ⟨item.span.start, item.span.start + (textOf (declarationElement reference)).length⟩ := rfl
  have hdeclares := hplace.declaresExactly hu hv
  rw [← hspan, ← hvalue] at hdeclares
  rw [hentry] at hshown
  rw [textOf_declarationElement] at hargs' hshown hspan hdeclares
  exact ⟨args', _, hargs', hshown, hget, hlabel, hvalue, hspan, hdeclares⟩

def itemCommented : Text := "[x /* y */, z]".toList

/-- A reference whose URL looks like the end of its declaration, an interpolation and a comment. -/
def quotingReference : Reference := ⟨"a\"), .package(\\(b)) // ]".toList, "1.0.0\\".toList⟩

theorem encode_sealed_quoting :
    (skipLiteral? ('(' :: (encode quotingReference.url ++ [')'])) 1 =
      .ok (some (1 + (encode quotingReference.url).length)) ∧
      ∃ e, skipLiteral? (encode "a\nb".toList) 0 = .error e ∧ e.isStructural = true) ∧
    ∃ args' item' decl inner url requirement version,
      splitArguments (exchangeAt itemCommented ⟨1, 2⟩ (renderDeclaration quotingReference)) 0 = .ok args' ∧
        args'.shown (exchangeAt itemCommented ⟨1, 2⟩ (renderDeclaration quotingReference)) =
          [(none, renderDeclaration quotingReference), (none, ['z'])] ∧
        args'.items[0]? = some item' ∧ DeclaresExactly (exchangeAt itemCommented ⟨1, 2⟩
          (renderDeclaration quotingReference)) item'.value quotingReference decl inner url requirement version := by
  obtain ⟨hread, hunread, hlist⟩ := encode_sealed
  have hu : '\n' ∉ quotingReference.url := by decide
  have hv : '\n' ∉ quotingReference.version := by decide
  have hargs : splitArguments itemCommented 0 =
      .ok ⟨0, 13, [⟨none, ⟨1, 2⟩, ⟨1, 2⟩, some 10⟩, ⟨none, ⟨12, 13⟩, ⟨12, 13⟩, none⟩]⟩ := rfl
  obtain ⟨args', item', hargs', hshown, hget, -, -, -, decl, inner, url, requirement, version, hdeclares⟩ :=
    hlist quotingReference itemCommented 0 _ [] _ _ hu hv hargs rfl
  refine ⟨⟨?_, ?_⟩, args', item', decl, inner, url, requirement, version, hargs', hshown, hget, hdeclares⟩
  · exact (hread quotingReference.url ['('] [')'] hu (by decide)).1
  · exact (hunread "a\nb".toList [] [] (by decide)).1

end PackageInstaller.Manifest
