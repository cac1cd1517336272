import PackageInstaller.Proofs.Faults
import PackageInstaller.Regex.Escape
import PackageInstaller.Text

/-! What a string literal without interpolation denotes, which spellings are read so, and what follows for
a package whose URL is spelled that way. -/

namespace PackageInstaller.Manifest

namespace StringLiteral

def denotesItself (c : Char) : Bool := ['"', '\'', '\\'].elem c

/-- What stands after the mark of an escape, and the character it denotes. -/
inductive Escape : Text → Char → Prop
  | itself {c : Char} : denotesItself c = true → Escape [c] c
  | null : Escape ['0'] '\x00'
  | tab : Escape ['t'] '\t'
  | lineFeed : Escape ['n'] '\n'
  | carriageReturn : Escape ['r'] '\r'
  | scalar {digits : Text} : digits ≠ [] → digits.length ≤ 8 → (∀ d ∈ digits, Regex.isHex d = true) →
      (Regex.hexCode digits).isValidChar →
        Escape ('u' :: '{' :: digits ++ ['}']) (Char.ofNat (Regex.hexCode digits))

/-- What stands between the quotes of a literal, and the text it denotes. -/
inductive Contents (hashes : Nat) (multiline : Bool) : Text → Text → Prop
  | nil : Contents hashes multiline [] []
  | char {c : Char} {t u : Text} : (escapeMark hashes).isPrefixOf (c :: t) = false →
      (closingMark hashes multiline).isPrefixOf (c :: t) = false → (c = '\n' ∨ c = '\r' → multiline = true) →
        Contents hashes multiline t u → Contents hashes multiline (c :: t) (c :: u)
  | escape {s t u : Text} {c : Char} : Escape s c → Contents hashes multiline t u →
      Contents hashes multiline (escapeMark hashes ++ s ++ t) (c :: u)
  | continued {w t u : Text} : multiline = true → (∀ c ∈ w, c = ' ' ∨ c = '\t') →
      Contents hashes multiline t u → Contents hashes multiline (escapeMark hashes ++ w ++ '\n' :: t) u

/-- A line without the indentation of the closing mark, which a blank line may have less of. -/
inductive Dedented (indent : Text) : Text → Text → Prop
  | indented (line : Text) : Dedented indent (indent ++ line) line
  | blank {line : Text} : line <+: indent → Dedented indent line []

inductive Denotes (literal value : Text) : Prop
  | line {hashes : Nat} {raw : Text} :
      literal = List.replicate hashes '#' ++ '"' :: (raw ++ closingMark hashes false) →
        Contents hashes false raw value → Denotes literal value
  | lines {hashes : Nat} {indent : Text} {raw dedented : List Text} :
      Text.unifyLineEnds literal = List.replicate hashes '#' ++
        '"' :: '"' :: '"' :: '\n' :: (raw.flatMap (· ++ ['\n']) ++ indent ++ closingMark hashes true) →
      (∀ c ∈ indent, c = ' ' ∨ c = '\t') → (∀ line ∈ raw, '\n' ∉ line) →
      List.Forall₂ (Dedented indent) raw dedented →
      Contents hashes true (Text.join ['\n'] dedented) value → Denotes literal value

/-- The characters that follow a backslash. -/
def escaped : Text → List Char
  | '\\' :: c :: t => c :: escaped t
  | _ :: t => escaped t
  | [] => []

/-- One quote at either end, and only characters that denote themselves are escaped. -/
def Direct (literal : Text) : Prop :=
  literal.head? = some '"' ∧ ¬['"', '"', '"'] <+: literal ∧ ∀ c ∈ escaped literal, denotesItself c = true

instance (literal : Text) : Decidable (Direct literal) := inferInstanceAs (Decidable (_ ∧ _ ∧ _))

variable {hashes : Nat} {multiline : Bool} {raw literal s t u v : Text} {c : Char}

lemma escaped_cons (h : c ≠ '\\') : escaped (c :: t) = escaped t := by
  rw [escaped]
  rintro d t' rfl
  exact absurd rfl h

lemma plain_of_unmarked (he : (escapeMark 0).isPrefixOf (c :: t) = false)
    (hq : (closingMark 0 false).isPrefixOf (c :: t) = false) : c ≠ '\\' ∧ c ≠ '"' := by
  constructor <;> rintro rfl
  · simp [escapeMark] at he
  · simp [closingMark, quoteCount] at hq

lemma decodeBody?_append (h : ∀ c ∈ s, c ≠ '\\' ∧ c ≠ '"' ∧ c ≠ '\n') :
    decodeBody? (s ++ t) = (decodeBody? t).map (s ++ ·) := by
  induction s with
  | nil => simp
  | cons c s ih =>
    rw [List.forall_mem_cons] at h
    rw [List.cons_append, decodeBody?_cons h.1.1 h.1.2.1 h.1.2.2, ih h.2, Option.map_map]
    rfl

lemma isHex_plain (h : Regex.isHex c = true) : c ≠ '\\' ∧ c ≠ '"' ∧ c ≠ '\n' := by
  refine ⟨?_, ?_, ?_⟩ <;> rintro rfl <;> exact absurd h (by decide)

lemma Escape.plain (h : Escape s c) : ∃ d s', s = d :: s' ∧ d ≠ '\n' ∧ ∀ e ∈ s', e ≠ '\\' ∧ e ≠ '"' ∧ e ≠ '\n' := by
  cases h with
  | itself hc =>
    refine ⟨_, [], rfl, ?_, by simp⟩
    rintro rfl
    exact absurd hc (by decide)
  | null | tab | lineFeed | carriageReturn => exact ⟨_, [], rfl, by decide, by simp⟩
  | @scalar digits _ _ hex =>
    refine ⟨'u', '{' :: digits ++ ['}'], rfl, by decide, ?_⟩
    rw [List.forall_mem_append, List.forall_mem_cons]
    exact ⟨⟨by decide, fun e he => isHex_plain (hex e he)⟩, by decide⟩

lemma Escape.denotesItself {d : Char} (h : Escape (d :: s) c) : denotesItself d = true ↔ d :: s = [c] := by
  cases h with
  | itself hc => simp [hc]
  | null | tab | lineFeed | carriageReturn => decide
  | scalar => exact iff_of_false (by decide) (by simp)

lemma Escape.decodeBody? (h : Escape s c) (t : Text) :
    decodeBody? (escapeMark 0 ++ s ++ t) = (StringLiteral.decodeBody? t).map (s ++ ·) := by
  obtain ⟨d, s, rfl, hd, hs⟩ := h.plain
  change StringLiteral.decodeBody? ('\\' :: d :: (s ++ t)) = _
  rw [StringLiteral.decodeBody?, if_neg hd, decodeBody?_append hs, Option.map_map]
  rfl

lemma decodeBody?_contents (h : Contents 0 false raw u)
    (hd : ∀ c ∈ escaped (raw ++ ['"']), denotesItself c = true) : decodeBody? (raw ++ ['"']) = some u := by
  induction h with
  | nil => rfl
  | char he hq hn _ ih =>
    obtain ⟨hb, hq⟩ := plain_of_unmarked he hq
    rw [List.cons_append, escaped_cons hb] at hd
    rw [List.cons_append, decodeBody?_cons hb hq (fun hc => by simpa using hn (.inl hc)), ih hd]
    rfl
  | @escape s t u c hs _ ih =>
    obtain ⟨d, s, rfl, -⟩ := hs.plain
    rw [List.append_assoc] at hd ⊢
    have hd : ∀ e ∈ d :: escaped (s ++ (t ++ ['"'])), StringLiteral.denotesItself e = true := hd
    rw [List.forall_mem_cons] at hd
    have heq := hs.denotesItself.mp hd.1
    obtain rfl : s = [] := (List.cons.inj heq).2
    rw [hs.decodeBody?, ih hd.2, heq]
    rfl
  | continued hm => simp at hm

/-- Each escape is read as one character at least, so none of them may be read as more. -/
lemma contents_decodeBody? (h : Contents 0 false raw u) (hv : decodeBody? (raw ++ ['"']) = some v) :
    u.length ≤ v.length ∧ (v = u → ∀ c ∈ escaped (raw ++ ['"']), denotesItself c = true) := by
  induction h generalizing v with
  | nil =>
    refine ⟨Nat.zero_le _, fun _ c hc => ?_⟩
    simp [escaped] at hc
  | @char c t u he hq hn _ ih =>
    obtain ⟨hb, hq⟩ := plain_of_unmarked he hq
    rw [List.cons_append, decodeBody?_cons hb hq (fun hc => by simpa using hn (.inl hc))] at hv
    obtain ⟨v, hrest, rfl⟩ := Option.map_eq_some_iff.mp hv
    obtain ⟨hle, hd⟩ := ih hrest
    rw [List.cons_append, escaped_cons hb]
    exact ⟨Nat.succ_le_succ hle, fun h => hd (List.cons.inj h).2⟩
  | @escape s t u c hs _ ih =>
    rw [List.append_assoc, hs.decodeBody?] at hv
    obtain ⟨v, hrest, rfl⟩ := Option.map_eq_some_iff.mp hv
    obtain ⟨hle, hd⟩ := ih hrest
    obtain ⟨d, s, rfl, -⟩ := hs.plain
    rw [List.length_append, List.length_cons, List.length_cons]
    refine ⟨by omega, fun h => ?_⟩
    have hlen := congrArg List.length h
    rw [List.length_append, List.length_cons, List.length_cons] at hlen
    obtain rfl : s = [] := List.length_eq_zero_iff.mp (by omega)
    obtain ⟨hdc, hvu⟩ := List.cons.inj h
    change ∀ e ∈ d :: escaped (t ++ ['"']), StringLiteral.denotesItself e = true
    rw [List.forall_mem_cons]
    exact ⟨hs.denotesItself.mpr (by rw [hdc]), hd hvu⟩
  | continued hm => simp at hm

lemma contents_not_quote (h : Contents 0 false raw u) : raw.head? ≠ some '"' := by
  cases h with
  | nil => simp
  | char he hq =>
    rw [List.head?_cons]
    exact fun h => (plain_of_unmarked he hq).2 (Option.some.inj h)
  | escape | continued => simp [escapeMark]

lemma unifyLineEnds_cons {x : Text} (h : Text.unifyLineEnds t = c :: x) (hc : c ≠ '\n') :
    ∃ t', t = c :: t' ∧ Text.unifyLineEnds t' = x := by
  unfold Text.unifyLineEnds at h
  split at h
  · simp at h
  · exact absurd (List.cons.inj h).1.symm hc
  · obtain ⟨hd, hx⟩ := List.cons.inj h
    split_ifs at hd
    · exact absurd hd.symm hc
    · exact ⟨_, by rw [hd], hx⟩

lemma not_direct_hash (t : Text) : decode? ('#' :: t) = none ∧ ¬Direct ('#' :: t) :=
  ⟨rfl, fun h => by simpa using h.1⟩

lemma not_direct_quotes (t : Text) :
    decode? ('"' :: '"' :: '"' :: t) = none ∧ ¬Direct ('"' :: '"' :: '"' :: t) := by
  refine ⟨?_, fun h => h.2.1 (List.prefix_append _ _)⟩
  rw [decode?, decodeBody?] <;> simp

/-- A literal is read as the text it denotes exactly if it is spelled directly. -/
theorem decode?_denotes (h : Denotes literal v) : decode? literal = some v ↔ Direct literal := by
  have hnone : decode? literal = none ∧ ¬Direct literal → (decode? literal = some v ↔ Direct literal) :=
    fun h => by simp [h.1, h.2]
  cases h with
  | @line hashes raw hl hc =>
    cases hashes with
    | succ n => exact hnone (hl ▸ not_direct_hash _)
    | zero =>
      subst hl
      change decodeBody? (raw ++ ['"']) = some v ↔ Direct ('"' :: (raw ++ ['"']))
      have hsingle : ¬['"', '"', '"'] <+: '"' :: (raw ++ ['"']) := by
        cases raw with
        | nil => decide
        | cons c raw =>
          rintro ⟨x, hx⟩
          exact contents_not_quote hc (congrArg some (by simpa using (List.cons.inj (List.cons.inj hx).2).1.symm))
      rw [Direct, escaped_cons (by decide)]
      exact ⟨fun h => ⟨rfl, hsingle, (contents_decodeBody? hc h).2 rfl⟩,
        fun h => decodeBody?_contents hc h.2.2⟩
  | @lines hashes indent raw dedented hl =>
    cases hashes with
    | succ n =>
      obtain ⟨t, rfl, -⟩ := unifyLineEnds_cons hl (by decide)
      exact hnone (not_direct_hash t)
    | zero =>
      obtain ⟨t₁, rfl, h₁⟩ := unifyLineEnds_cons hl (by decide)
      obtain ⟨t₂, rfl, h₂⟩ := unifyLineEnds_cons h₁ (by decide)
      obtain ⟨t₃, rfl, -⟩ := unifyLineEnds_cons h₂ (by decide)
      exact hnone (not_direct_quotes t₃)

lemma Contents.append (h : ∀ c ∈ s, c ≠ '\\' ∧ c ≠ '"' ∧ c ≠ '\n' ∧ c ≠ '\r')
    (ht : Contents hashes multiline t u) : Contents hashes multiline (s ++ t) (s ++ u) := by
  induction s with
  | nil => exact ht
  | cons c s ih =>
    rw [List.forall_mem_cons] at h
    obtain ⟨⟨hb, hq, hn, hr⟩, hs⟩ := h
    refine .char ?_ ?_ (fun hc => absurd hc (by simp [hn, hr])) (ih hs)
    · simp [escapeMark, List.isPrefixOf, Ne.symm hb]
    · cases multiline <;> simp [closingMark, quoteCount, List.replicate, List.isPrefixOf, Ne.symm hq]

end StringLiteral

open StringLiteral

variable {t literal url : Text} {reference : Reference}

/-- The literal of the `url` argument of a package declaration, as it is spelled. -/
def spelledUrl? (t : Text) (span : Span) : Option Text :=
  match declarationArguments? t span with
  | .ok (some args) => (args.find? urlLabel).map fun url => t.slice url.value.start url.value.stop
  | _ => none

def spelledUrls (t : Text) : List Text :=
  match packageArguments? t with
  | .ok (some args) =>
    match dependencyArray? t args with
    | .ok (some list) => list.items.filterMap fun item => spelledUrl? t item.value
    | _ => []
  | _ => []

lemma mem_spelledUrls (h : literal ∈ spelledUrls t) : ∃ args list item, packageArguments? t = .ok (some args) ∧
    dependencyArray? t args = .ok (some list) ∧ item ∈ list.items ∧ spelledUrl? t item.value = some literal := by
  rw [spelledUrls] at h
  split at h
  · rename_i args hargs
    split at h
    · rename_i list hlist
      obtain ⟨item, hi, hs⟩ := List.mem_filterMap.mp h
      exact ⟨args, list, item, hargs, hlist, hi, hs⟩
    · simp at h
  · simp at h

lemma declarationUrl?_spelled {span : Span} (h : spelledUrl? t span = some literal) :
    isPackageDeclaration t span = true ∧ declarationUrl? t span = .ok (decode? literal) := by
  rw [spelledUrl?] at h
  split at h
  · rename_i args hargs
    obtain ⟨url, hurl, rfl⟩ := Option.map_eq_some_iff.mp h
    refine ⟨?_, ?_⟩
    · rw [declarationArguments?] at hargs
      rw [isPackageDeclaration]
      split at hargs
      · simp at hargs
      · rename_i n hn
        rw [hn, Option.isSome_some]
    · rw [declarationUrl?, hargs]
      simp [bind, Except.bind, hurl, valueAt?, pure, Except.pure]
  · simp at h

/-- A search that found nothing has passed every declaration, and read other URLs there. -/
lemma declaresUrl_false {wanted : Text} {items : List Argument} {item : Argument}
    (h : declaresUrl t wanted items = .ok false) (hi : item ∈ items)
    (hu : declarationUrl? t item.value = .ok (some url)) : Repository.canonicalUrl url ≠ wanted := by
  induction items with
  | nil => simp at hi
  | cons first items ih =>
    rw [declaresUrl] at h
    cases hf : declarationUrl? t first.value with
    | error e => simp [hf, bind, Except.bind] at h
    | ok found =>
      simp only [hf, bind, Except.bind] at h
      rcases List.mem_cons.mp hi with rfl | hi
      · obtain rfl := Except.ok.inj (hf.symm.trans hu)
        intro hw
        simp [hw, pure, Except.pure] at h
      · cases found with
        | none => exact ih h hi
        | some other =>
          simp only at h
          split_ifs at h
          · simp [pure, Except.pure] at h
          · exact ih h hi

lemma addPackage_of_list {args list : ArgumentList} (hp : packageArguments? t = .ok (some args))
    (hd : dependencyArray? t args = .ok (some list)) :
    (addPackage t reference).outcome = (addToList t list reference).map (·.2) := by
  rw [addPackage_outcome, placePackage, hp]
  simp only [Except.mapError, bind, Except.bind, hd]

lemma addToList_declared {list : ArgumentList} {item : Argument} {placed : Placement × Text}
    (h : addToList t list reference = .ok placed) (hi : item ∈ list.items)
    (hd : isPackageDeclaration t item.value = true) (hu : declarationUrl? t item.value = .ok (some url)) :
    Repository.canonicalUrl url ≠ Repository.canonicalUrl reference.url := by
  rw [addToList] at h
  simp only [existing_items] at h
  cases hf : declaresUrl t (Repository.canonicalUrl reference.url)
      (list.items.filter fun item => isPackageDeclaration t item.value) with
  | error cause => simp [hf, Except.mapError, bind, Except.bind] at h
  | ok found =>
    cases found with
    | true => simp [hf, Except.mapError, bind, Except.bind, throw, throwThe, MonadExceptOf.throw] at h
    | false => exact declaresUrl_false hf (List.mem_filter.mpr ⟨hi, hd⟩) hu

/-- A package whose URL the list spells directly is not declared a second time. -/
theorem addPackage_spelled {value : Text} (h : literal ∈ spelledUrls t) (hv : Denotes literal value)
    (hd : Direct literal) (hc : Repository.canonicalUrl value = Repository.canonicalUrl reference.url) :
    ∃ e, (addPackage t reference).outcome = .error e ∧
      (e = .alreadyDeclared reference.url ∨ e.isStructural = true) := by
  obtain ⟨args, list, item, hp, harr, hi, hs⟩ := mem_spelledUrls h
  obtain ⟨hdecl, hurl⟩ := declarationUrl?_spelled hs
  rw [(decode?_denotes hv).mpr hd] at hurl
  have hout : (addPackage t reference).outcome = (addToList t list reference).map (·.2) :=
    addPackage_of_list hp harr
  cases hadd : addToList t list reference with
  | ok placed => exact absurd hc (addToList_declared hadd hi hdecl hurl)
  | error e =>
    rw [hadd] at hout
    refine ⟨e, hout, ?_⟩
    rcases addPackage_error hout with hstr | hdup
    · exact .inr hstr
    · rcases addToList_error hadd with ⟨cause, -, rfl⟩ | rfl
      · simp [EditError.isDuplicate] at hdup
      · exact .inl rfl

def quotedList : Text :=
  "let package = Package(name: \"P\", dependencies: [.package(url: \"https://e.com/a\\'b\", from: \"1.0.0\")])".toList

def quotedLiteral : Text := "\"https://e.com/a\\'b\"".toList

def quotedUrl : Text := "https://e.com/a'b".toList

def quotedReference : Reference := ⟨"https://E.com/a'b.git/".toList, "1.0.0".toList⟩

theorem addPackage_spelled_quoted :
    (quotedLiteral ∈ spelledUrls quotedList ∧ Denotes quotedLiteral quotedUrl ∧ Direct quotedLiteral ∧
      Repository.canonicalUrl quotedUrl = Repository.canonicalUrl quotedReference.url) ∧
    ∃ e, (addPackage quotedList quotedReference).outcome = .error e ∧
      (e = .alreadyDeclared quotedReference.url ∨ e.isStructural = true) := by
  have hs : quotedLiteral ∈ spelledUrls quotedList := by decide +kernel
  have hv : Denotes quotedLiteral quotedUrl :=
    @Denotes.line _ _ 0 "https://e.com/a\\'b".toList rfl
      (@Contents.append 0 false "https://e.com/a".toList _ _ (by decide)
        (.escape (.itself rfl) (@Contents.append 0 false ['b'] _ _ (by decide) .nil)))
  have hd : Direct quotedLiteral := by decide
  have hc : Repository.canonicalUrl quotedUrl = Repository.canonicalUrl quotedReference.url := by decide +kernel
  exact ⟨⟨hs, hv, hd, hc⟩, addPackage_spelled hs hv hd hc⟩

def rawList : Text :=
  "let package = Package(name: \"P\", dependencies: [.package(url: #\"https://example.com/a\"#, from: \"1.0.0\")])".toList

def rawUrl : Text := "https://example.com/a".toList

def rawLiteral : Text := '#' :: '"' :: rawUrl ++ ['"', '#']

/-- A raw literal is not read, and its URL is declared once more. -/
theorem not_addPackage_spelled : ¬∀ t literal value reference, literal ∈ spelledUrls t → Denotes literal value →
    Repository.canonicalUrl value = Repository.canonicalUrl reference.url →
      ∃ e, (addPackage t reference).outcome = .error e := by
  intro h
  have hv : Denotes rawLiteral rawUrl :=
    @Denotes.line _ _ 1 rawUrl rfl (by simpa using @Contents.append 1 false rawUrl _ _ (by decide) .nil)
  obtain ⟨e, he⟩ := h rawList rawLiteral rawUrl ⟨rawUrl, "1.0.0".toList⟩ (by decide +kernel) hv rfl
  have hadded : (addPackage rawList ⟨rawUrl, "1.0.0".toList⟩).outcome.isOk = true := by decide +kernel
  rw [he] at hadded
  simp [Except.isOk, Except.toBool] at hadded

end PackageInstaller.Manifest
