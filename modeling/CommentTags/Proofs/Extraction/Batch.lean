import CommentTags.Proofs.Extraction.Filing

/- Parsing all accepted lines in a row comes to the same as filing their bodies and parsing each
   file by itself. A batch that fails shows its first line that is no tag. -/
namespace CommentTags

theorem parseAll_eq_ok_iff (options : Options) (texts : List String) (tags : List Tag) :
    Tag.parseAll options texts = .ok tags ↔
      texts.map (Tag.parse options) = tags.map (.ok : Tag → Except TagError Tag) := by
  unfold Tag.parseAll
  induction texts generalizing tags with
  | nil => cases tags <;> simp [pure, Except.pure]
  | cons text texts ih =>
    rw [List.mapM_cons]
    cases read : Tag.parse options text with
    | error source => cases tags <;> simp [bind, Except.bind, read]
    | ok tag =>
      cases all : texts.mapM (Tag.parse options) with
      | error source => cases tags <;> simp [bind, Except.bind, read, ← ih, all]
      | ok others => cases tags <;> simp [bind, Except.bind, pure, Except.pure, read, ← ih, all]

section ParseLines
variable {options : Options} {filed : Keyed Identifier (List Tag)} {accepted : List TagLine}

theorem parseLines_ok {line : TagLine} {tag : Tag} {later : List TagLine}
    (read : Tag.parse options line.body = .ok tag) :
    parseLines options filed (line :: later) =
      parseLines options (filed.file line.identifier tag) later := by
  simp only [parseLines, read]

theorem parseLines_error {line : TagLine} {source : TagError} {later : List TagLine}
    (failed : Tag.parse options line.body = .error source) :
    parseLines options filed (line :: later) = .error ⟨line, source⟩ := by
  simp only [parseLines, failed]

theorem parseLines_mapItems {parsed : Keyed Identifier (List Tag)}
    {bodies : Keyed Identifier (List String)}
    (same : bodies.mapItems (Tag.parse options) =
      filed.mapItems (.ok : Tag → Except TagError Tag))
    (read : parseLines options filed accepted = .ok parsed) :
    (accepted.foldl (fun filed line => filed.file line.identifier line.body) bodies).mapItems
        (Tag.parse options) = parsed.mapItems (.ok : Tag → Except TagError Tag) := by
  induction accepted generalizing filed bodies with
  | nil =>
    rw [← Except.ok.inj read]
    exact same
  | cons line later ih =>
    cases outcome : Tag.parse options line.body with
    | error source =>
      rw [parseLines_error outcome] at read
      simp at read
    | ok tag =>
      rw [parseLines_ok outcome] at read
      refine ih ?_ read
      rw [Keyed.mapItems_file, Keyed.mapItems_file, same, outcome]

theorem parseLines_eq_error_iff (error : LineError) :
    parseLines options filed accepted = .error error ↔
      ∃ front back, accepted = front ++ error.line :: back ∧
        (∀ line ∈ front, ∃ tag, Tag.parse options line.body = .ok tag) ∧
        Tag.parse options error.line.body = .error error.source := by
  induction accepted generalizing filed with
  | nil => simp [parseLines]
  | cons line later ih =>
    cases outcome : Tag.parse options line.body with
    | error source =>
      rw [parseLines_error outcome, Except.error.injEq]
      constructor
      · intro same
        subst same
        exact ⟨[], later, rfl, by simp, outcome⟩
      · intro shown
        obtain ⟨front, back, split, passed, failed⟩ := shown
        cases front with
        | nil =>
          obtain ⟨rfl, rfl⟩ := List.cons.inj split
          rw [outcome] at failed
          rw [Except.error.inj failed]
        | cons first front =>
          obtain ⟨rfl, _⟩ := List.cons.inj split
          obtain ⟨tag, read⟩ := passed line (by simp)
          simp [outcome] at read
    | ok tag =>
      rw [parseLines_ok outcome, ih]
      constructor
      · intro shown
        obtain ⟨front, back, rfl, passed, failed⟩ := shown
        refine ⟨line :: front, back, rfl, ?_, failed⟩
        intro other member
        rcases List.mem_cons.mp member with rfl | further
        · exact ⟨tag, outcome⟩
        · exact passed other further
      · intro shown
        obtain ⟨front, back, split, passed, failed⟩ := shown
        cases front with
        | nil =>
          obtain ⟨rfl, rfl⟩ := List.cons.inj split
          simp [outcome] at failed
        | cons first front =>
          obtain ⟨rfl, rfl⟩ := List.cons.inj split
          exact ⟨front, back, rfl, fun other member => passed other (by simp [member]), failed⟩

theorem exists_parseLines_iff :
    (∃ parsed, parseLines options filed accepted = .ok parsed) ↔
      ∀ line ∈ accepted, ∃ tag, Tag.parse options line.body = .ok tag := by
  induction accepted generalizing filed with
  | nil => simp [parseLines]
  | cons line later ih =>
    cases outcome : Tag.parse options line.body with
    | error source => simp [parseLines_error outcome, outcome]
    | ok tag => simp [parseLines_ok outcome, outcome, ih]

theorem parseLines_map {renamed : TagLine → TagLine}
    (identifier : ∀ line, (renamed line).identifier = line.identifier)
    (body : ∀ line, (renamed line).body = line.body) :
    parseLines options filed (accepted.map renamed) =
      (parseLines options filed accepted).mapError fun error =>
        ⟨renamed error.line, error.source⟩ := by
  induction accepted generalizing filed with
  | nil => rfl
  | cons line later ih =>
    have same : Tag.parse options (renamed line).body = Tag.parse options line.body := by rw [body]
    rw [List.map_cons]
    cases outcome : Tag.parse options line.body with
    | error source =>
      rw [parseLines_error outcome, parseLines_error (same.trans outcome)]
      rfl
    | ok tag => rw [parseLines_ok outcome, parseLines_ok (same.trans outcome), identifier, ih]

end ParseLines

section Extraction
variable {options : Options} {marker : String} {group : Option String} {lines : List String}

theorem extract_holdsItem (body : String) :
    (extract marker group lines).HoldsItem body ↔
      ∃ line ∈ tagLines marker group lines, line.body = body := by
  rw [extract_eq_fileAll, Keyed.fileAll_holdsItem, ← tagLines_entries]
  simp [Keyed.holdsItem_nil, TagLine.entry]

theorem exists_extractTags_iff :
    (∃ parsed, extractTags options marker group lines = .ok parsed) ↔
      ∀ entry ∈ extract marker group lines, ∀ body ∈ entry.2,
        ∃ tag, Tag.parse options body = .ok tag := by
  unfold extractTags
  rw [exists_parseLines_iff]
  constructor
  · intro reads entry filed body member
    obtain ⟨line, accepted, rfl⟩ := (extract_holdsItem body).mp ⟨entry, filed, member⟩
    exact reads line accepted
  · intro reads line accepted
    obtain ⟨entry, filed, member⟩ := (extract_holdsItem line.body).mpr ⟨line, accepted, rfl⟩
    exact reads entry filed line.body member

theorem extractTags_mapItems {parsed : Keyed Identifier (List Tag)}
    (read : extractTags options marker group lines = .ok parsed) :
    (extract marker group lines).mapItems (Tag.parse options) =
      parsed.mapItems (.ok : Tag → Except TagError Tag) :=
  parseLines_mapItems rfl read

theorem extractTags_files {parsed : Keyed Identifier (List Tag)}
    (read : extractTags options marker group lines = .ok parsed) :
    parsed.map Prod.fst = (extract marker group lines).map Prod.fst ∧
      ∀ key, ((extract marker group lines).find? key).map (Tag.parseAll options) =
        (parsed.find? key).map .ok := by
  have same := extractTags_mapItems read
  constructor
  · rw [← Keyed.mapItems_keys parsed, ← same, Keyed.mapItems_keys]
  · intro key
    have found := congrArg (Keyed.find? · key) same
    simp only [Keyed.find?_mapItems] at found
    cases bodies : (extract marker group lines).find? key with
    | none =>
      cases tags : parsed.find? key with
      | none => rfl
      | some tags => simp [bodies, tags] at found
    | some texts =>
      cases tags : parsed.find? key with
      | none => simp [bodies, tags] at found
      | some read =>
        simp only [bodies, tags, Option.map_some, Option.some.injEq] at found ⊢
        exact (parseAll_eq_ok_iff options texts read).mpr found

/-- The line of the error is accepted and is no tag, and all accepted lines above it are tags. -/
structure FirstFailure (options : Options) (marker : String) (group : Option String)
    (lines : List String) (error : LineError) : Prop where
  accepted : ∃ text, lines[error.line.index]? = some text ∧
    TagLine.accept? marker group error.line.index text = some error.line
  failed : Tag.parse options error.line.body = .error error.source
  first : ∀ index < error.line.index, ∀ text line, lines[index]? = some text →
    TagLine.accept? marker group index text = some line →
    ∃ tag, Tag.parse options line.body = .ok tag

theorem extractTags_eq_error_iff (error : LineError) :
    extractTags options marker group lines = .error error ↔
      FirstFailure options marker group lines error := by
  -- the lines filed before the failing one are those above it, because indices ascend
  have ordered : (tagLines marker group lines).Pairwise fun line later =>
      line.index < later.index := by
    rw [tagLines_eq]
    exact linesFrom_ordered 0 lines
  unfold extractTags
  rw [parseLines_eq_error_iff]
  constructor
  · intro shown
    obtain ⟨front, back, split, passed, failed⟩ := shown
    rw [split, List.pairwise_append, List.pairwise_cons] at ordered
    obtain ⟨_, ⟨behind, _⟩, _⟩ := ordered
    refine ⟨mem_tagLines_iff.mp (by simp [split]), failed, ?_⟩
    intro index before text line found accepted
    obtain rfl := TagLine.accept?_index accepted
    have member : line ∈ tagLines marker group lines := mem_tagLines_iff.mpr ⟨text, found, accepted⟩
    rw [split, List.mem_append, List.mem_cons] at member
    rcases member with above | rfl | below
    · exact passed line above
    · omega
    · have := behind line below
      omega
  · intro failure
    obtain ⟨accepted, failed, first⟩ := failure
    obtain ⟨front, back, split⟩ := List.append_of_mem (mem_tagLines_iff.mpr accepted)
    rw [split, List.pairwise_append] at ordered
    refine ⟨front, back, split, ?_, failed⟩
    intro line above
    have member : line ∈ tagLines marker group lines := by simp [split, above]
    obtain ⟨text, found, taken⟩ := mem_tagLines_iff.mp member
    exact first line.index (ordered.2.2 line above error.line (by simp)) text line found taken

theorem extractTags_insert {front back : List String} {text : String}
    (rejected : TagLine.accept? marker group front.length text = none) :
    extractTags options marker group (front ++ text :: back) =
      (extractTags options marker group (front ++ back)).mapError fun error =>
        ⟨error.line.makeRoom front.length, error.source⟩ := by
  unfold extractTags
  rw [tagLines_insert rejected]
  exact parseLines_map (TagLine.makeRoom_identifier _) (TagLine.makeRoom_body _)

theorem extractTags_single_iff {text : String} {parsed : Keyed Identifier (List Tag)}
    (something : parsed ≠ []) :
    extractTags options marker group [text] = .ok parsed ↔
      ∃ line tag, TagLine.accept? marker group 0 text = some line ∧
        Tag.parse options line.body = .ok tag ∧ parsed = [(line.identifier, [tag])] := by
  unfold extractTags
  rw [tagLines_eq, linesFrom_cons]
  cases TagLine.accept? marker group 0 text with
  | none => simpa [linesFrom, parseLines] using Ne.symm something
  | some line =>
    cases read : Tag.parse options line.body with
    | error source => simp [linesFrom, parseLines, read]
    | ok tag => simp [linesFrom, parseLines, read, Keyed.file, Keyed.alter, eq_comm]

theorem extractTags_rejected {text : String}
    (rejected : TagLine.accept? marker group 0 text = none) :
    extractTags options marker group [text] = .ok [] := by
  rw [extractTags, tagLines_eq, linesFrom_cons, rejected]
  rfl

end Extraction

/-- Parsing in a batch agrees with extracting first: it succeeds if every extracted body is a tag,
    and then every file holds the tags of its bodies. Otherwise it shows the first accepted line
    that is no tag. Lines that are not accepted do not matter but for the index of that line. -/
theorem extractTags_agrees (options : Options) (marker : String) (group : Option String)
    (lines : List String) :
    ((∃ parsed, extractTags options marker group lines = .ok parsed) ↔
      ∀ entry ∈ extract marker group lines, ∀ body ∈ entry.2,
        ∃ tag, Tag.parse options body = .ok tag) ∧
    (∀ parsed, extractTags options marker group lines = .ok parsed →
      parsed.map Prod.fst = (extract marker group lines).map Prod.fst ∧
      ∀ key, ((extract marker group lines).find? key).map (Tag.parseAll options) =
        (parsed.find? key).map .ok) ∧
    (∀ error, extractTags options marker group lines = .error error ↔
      FirstFailure options marker group lines error) ∧
    (∀ front text back, lines = front ++ text :: back →
      TagLine.accept? marker group front.length text = none →
      extractTags options marker group lines =
        (extractTags options marker group (front ++ back)).mapError fun error =>
          ⟨error.line.makeRoom front.length, error.source⟩) := by
  refine ⟨exists_extractTags_iff, fun _ => extractTags_files, extractTags_eq_error_iff, ?_⟩
  intro front text back split rejected
  rw [split]
  exact extractTags_insert rejected

theorem plain_line_passed_over :
    let parsed : Keyed Identifier (List Tag) :=
      [(⟨"", "a"⟩, [.single ⟨"a", []⟩ (.scalar (.string "x"))]),
        (⟨"", "b"⟩, [.single ⟨"b", []⟩ .none, .single ⟨"b", []⟩ (.scalar (.int "1" 1))])]
    extractTags ⟨false, 0⟩ "#" none ["#b", "#a=x", "#b=1"] = .ok parsed ∧
      parsed.map Prod.fst = (extract "#" none ["#b", "#a=x", "#b=1"]).map Prod.fst ∧
      extractTags ⟨false, 0⟩ "#" none ["#b", "text", "#a=x", "#b=1"] = .ok parsed := by
  intro parsed
  let lines := ["#b", "#a=x", "#b=1"]
  have read : extractTags ⟨false, 0⟩ "#" none lines = .ok parsed := by
    have kept : (extractTags ⟨false, 0⟩ "#" none lines).toOption = some parsed := by
      decide +kernel
    cases outcome : extractTags ⟨false, 0⟩ "#" none lines with
    | error error => simp [outcome, Except.toOption] at kept
    | ok other => simpa [outcome, Except.toOption] using kept
  have files := (extractTags_agrees ⟨false, 0⟩ "#" none lines).2.1 parsed read
  have passes := (extractTags_agrees ⟨false, 0⟩ "#" none ["#b", "text", "#a=x", "#b=1"]).2.2.2
  have same := passes ["#b"] "text" ["#a=x", "#b=1"] rfl (by decide)
  refine ⟨read, files.1, ?_⟩
  rw [same, List.singleton_append, read]
  rfl

end CommentTags
