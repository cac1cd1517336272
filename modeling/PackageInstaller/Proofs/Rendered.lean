import PackageInstaller.Proofs.Insertion

/-! What the editor puts into a manifest: the name of a package, a package declaration, and a whole
dependency list. Each reads back as what it was written for. -/

namespace PackageInstaller.Manifest

def nameElement (identifier : Text) : List Piece := [.literal (StringLiteral.encode identifier)]

/-- What stands between the parentheses of a declaration. -/
def declarationArguments (reference : Reference) : List Piece :=
  chars "url: ".toList ++ .literal (StringLiteral.encode reference.url) :: (chars ", .exact(".toList ++
    .literal (StringLiteral.encode reference.version) :: chars [')'])

def declarationElement (reference : Reference) : List Piece :=
  chars ".package(".toList ++ (declarationArguments reference ++ [.char ')'])

/-- A dependency list with `w` before its only element and `w'` after it. -/
def listElement (reference : Reference) (w w' : Text) : List Piece :=
  chars (dependenciesLabel ++ ": [".toList) ++ ((chars w ++ declarationElement reference ++ chars w') ++
    [.char ']'])

variable {identifier : Text} {reference : Reference} {w w' : Text}

lemma textOf_nameElement (identifier : Text) :
    textOf (nameElement identifier) = StringLiteral.encode identifier := by
  simp [nameElement, Piece.text]

lemma textOf_declarationElement (reference : Reference) :
    textOf (declarationElement reference) = renderDeclaration reference := by
  have h : ".package(url: ".toList = ".package(".toList ++ "url: ".toList := by decide
  have h' : "))".toList = [')'] ++ [')'] := by decide
  unfold declarationElement declarationArguments renderDeclaration
  rw [h, h', textOf_append, textOf_append]
  simp [Piece.text]

lemma textOf_listElement (reference : Reference) (w w' : Text) :
    textOf (listElement reference w w') =
      dependenciesLabel ++ ": [".toList ++ w ++ renderDeclaration reference ++ w' ++ [']'] := by
  simp only [listElement, textOf_append, textOf_cons, textOf_chars, textOf_nil,
    textOf_declarationElement, Piece.text, List.append_assoc, List.append_nil]

lemma literal_solid (v : Text) : (Piece.literal (StringLiteral.encode v)).isTrivia = false := rfl

lemma lexedBefore_encode {v s : Text} {ps : List Piece} (hv : '\n' ∉ v)
    (hs : (textOf ps ++ s).head? ≠ some '"') (h : LexedBefore s ps) :
    LexedBefore s (.literal (StringLiteral.encode v) :: ps) :=
  ⟨literalLength?_encode hv fun _ => hs, h⟩

lemma stringOf_encode {v : Text} (hv : '\n' ∉ v) :
    stringOf [.literal (StringLiteral.encode v)] = some v :=
  decode?_encode hv

lemma stringOf_name (h : '\n' ∉ identifier) : stringOf (valueOf (nameElement identifier)) = some identifier :=
  stringOf_encode h

theorem insertable_name (h : '\n' ∉ identifier) : Insertable (nameElement identifier) := by
  refine ⟨⟨.literal _, ⟨?_, ?_⟩, by simp [nameElement], fun hs _ =>
    lexedBefore_encode h (by simpa using hs) trivial⟩, ?_⟩
  · simpa [nameElement] using literal_solid identifier
  · simpa [nameElement] using literal_solid identifier
  · exact Hushed.quiet (by simp [Hushed, nameElement])

lemma declarationArguments_balanced (reference : Reference) :
    Balanced (declarationArguments reference) := rfl

lemma declarationElement_lexed (hu : '\n' ∉ reference.url) (hv : '\n' ∉ reference.version) (s : Text) :
    LexedBefore s (declarationElement reference) := by
  have hend : LexedBefore s (chars "))".toList) := lexedBefore_chars (by decide) s
  have hversion := lexedBefore_encode hv (by simp [Piece.text, chars]) hend
  have hurl := lexedBefore_encode hu (by simp [Piece.text, chars])
    (lexedBefore_append.mpr ⟨lexedBefore_chars (w := ", .exact(".toList) (by decide) _, hversion⟩)
  have := lexedBefore_append.mpr ⟨lexedBefore_chars (w := ".package(url: ".toList) (by decide) _, hurl⟩
  simpa [declarationElement, declarationArguments, chars] using this

theorem insertable_declaration (hu : '\n' ∉ reference.url) (hv : '\n' ∉ reference.version) :
    Insertable (declarationElement reference) := by
  have hgroup := Segment.group (o := '(') rfl (declarationArguments_balanced reference)
  have hword : Segment (chars ".package".toList) := Segment.chars (by decide)
  refine ⟨⟨hword.append hgroup, ⟨?_, ?_⟩, by simp [declarationElement, chars],
    fun _ _ => declarationElement_lexed hu hv _⟩, fun z pos before => ⟨rfl, ?_⟩⟩
  · intro p hp
    cases hp
    rfl
  · intro p hp
    rw [declarationElement, ← List.append_assoc, List.getLast?_concat] at hp
    cases hp
    rfl
  · refine sitesFrom_quiet packageCall_calls pos before ?_
    simp [declarationElement, declarationArguments, chars]

lemma declarationElement_body (reference : Reference) :
    declarationBody? (declarationElement reference) = some (declarationArguments reference) := by
  have hlen : declarationLength? (textOf (declarationElement reference)) = some 9 := rfl
  rw [declarationBody?, hlen]
  exact (interior?_iff (o := '(') rfl).mpr ⟨[], rfl, declarationArguments_balanced reference⟩

lemma contents_declarationArguments (reference : Reference) :
    contents (declarationArguments reference) = some
      [chars "url: ".toList ++ [.literal (StringLiteral.encode reference.url)],
        chars ".exact(".toList ++ [.literal (StringLiteral.encode reference.version), .char ')']] := rfl

/-- A declaration is one, and declares its URL. -/
theorem declarationElement_reads (hu : '\n' ∉ reference.url) :
    valueOf (declarationElement reference) = declarationElement reference ∧
      isDeclaration (declarationElement reference) = true ∧
        urlOf (declarationElement reference) = some (some reference.url) := by
  refine ⟨rfl, rfl, ?_⟩
  rw [urlOf, declarationElement_body]
  simp only [contents_declarationArguments, Option.map_some]
  change some (stringOf [.literal (StringLiteral.encode reference.url)]) = _
  rw [stringOf_encode hu]

theorem insertable_list (hu : '\n' ∉ reference.url) (hv : '\n' ∉ reference.version)
    (hw : ∀ c ∈ w, Text.isBlank c = true) (hw' : ∀ c ∈ w', Text.isBlank c = true) :
    Insertable (listElement reference w w') := by
  have hd := insertable_declaration hu hv
  have hin : Balanced (chars w ++ declarationElement reference ++ chars w') :=
    ((trivial_balanced (trivial_chars hw)).append hd.segment.balanced).append
      (trivial_balanced (trivial_chars hw'))
  have hgroup := Segment.group (o := '[') rfl hin
  have hword : Segment (chars (dependenciesLabel ++ ": ".toList)) := by
    have hl : Segment (chars dependenciesLabel) := Segment.chars (by decide)
    have hc : Segment (chars ": ".toList) := Segment.chars (by decide)
    rw [chars_append]
    exact hl.append hc
  refine ⟨⟨hword.append hgroup, ⟨?_, ?_⟩, by simp [listElement, chars, dependenciesLabel],
    fun {s} _ _ => ?_⟩, ?_⟩
  · intro p hp
    cases hp
    rfl
  · intro p hp
    rw [listElement, ← List.append_assoc, List.getLast?_concat] at hp
    cases hp
    rfl
  · have hend : LexedBefore s (chars [']']) := lexedBefore_chars (by decide) s
    have hafter := lexedBefore_append.mpr ⟨lexedBefore_chars (plain_of_blank hw') _, hend⟩
    have helem := lexedBefore_append.mpr ⟨declarationElement_lexed hu hv _, hafter⟩
    have hbefore := lexedBefore_append.mpr ⟨lexedBefore_chars (plain_of_blank hw) _, helem⟩
    have := lexedBefore_append.mpr
      ⟨lexedBefore_chars (w := dependenciesLabel ++ ": [".toList) (by decide) _, hbefore⟩
    simpa [listElement, chars] using this
  · refine Quiet.append (Hushed.quiet (by simp [Hushed, chars, dependenciesLabel])) ?_
    refine (((trivial_chars hw).hushed.quiet.append hd.quiet).append (trivial_chars hw').hushed.quiet).append ?_
    exact (hushed_singleton (by decide) (by decide)).quiet

/-- A dependency list has its label and holds the one declaration. -/
theorem listElement_reads (hu : '\n' ∉ reference.url) (hv : '\n' ∉ reference.version)
    (hw : ∀ c ∈ w, Text.isBlank c = true) (hw' : ∀ c ∈ w', Text.isBlank c = true) :
    labelOf (listElement reference w w') = some dependenciesLabel ∧
      ∃ d, arrayBody? (valueOf (listElement reference w w')) = some d ∧
        contents d = some [declarationElement reference] ∧ (segments d).length = 1 := by
  have hd := insertable_declaration hu hv
  have hseg : Segment (chars w ++ declarationElement reference ++ chars w') :=
    ((trivial_chars hw).segment.append hd.segment).append (trivial_chars hw').segment
  refine ⟨rfl, chars w ++ declarationElement reference ++ chars w', ?_, ?_, ?_⟩
  · exact arrayBody?_array hseg.balanced []
  · rw [contents, segments_of_segment hseg, entries,
      (hd.core_eq (trivial_chars hw) (trivial_chars hw')).2, if_neg hd.ne_nil]
  · rw [segments_of_segment hseg, List.length_singleton]

end PackageInstaller.Manifest
