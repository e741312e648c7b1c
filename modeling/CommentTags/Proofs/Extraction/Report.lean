import CommentTags.Program
import CommentTags.Proofs.Extraction.Batch
import CommentTags.Proofs.Extraction.Parts
import CommentTags.Proofs.Tag.Spans

/- What a failed batch points at. The error counts from the start of the body, the report from the
   start of the line, and both count in bytes and in characters; the marks stand under the very
   characters of the line that are at fault. -/
namespace CommentTags

theorem columnAt?_eq (column offset : Nat) (text : List Char) :
    columnAt? column offset text =
      (cutAt? offset text).map fun (front, _) => column + front.length := by
  induction text generalizing column offset with
  | nil => cases offset <;> simp [columnAt?, cutAt?]
  | cons c text ih =>
    cases offset with
    | zero => simp [columnAt?, cutAt?]
    | succ offset =>
      simp only [columnAt?, cutAt?]
      split
      · rw [ih, Option.map_map]
        congr 1
        funext cut
        simp only [Function.comp_apply, List.length_cons]
        omega
      · rfl

section Report
variable {options : Options} {marker : String} {group : Option String} {lines : List String}
  {error : LineError}

theorem report_eq {line : String} (found : lines[error.line.index]? = some line) :
    error.report lines = "ERROR AT LINE " ++ (error.line.index + 1).repr ++ ":\n" ++ line ++ "\n"
      ++ String.ofList
        (underline ((columnAt? 0 error.line.bodyOffset line.toList).getD 0 +
            error.source.start.column)
          ((columnAt? 0 error.line.bodyOffset line.toList).getD 0 + error.source.stop.column))
      ++ "\n" ++ error.notice.text ++ "\n\n" := by
  unfold LineError.report
  rw [found]
  rfl

theorem underline_eq {text front body before shown : List Char} {offset : Nat}
    {start stop : Position}
    (cut : cutAt? offset text = some (front, body))
    (first : start = Position.start.after before)
    (last : stop = Position.start.after (before ++ shown)) :
    underline ((columnAt? 0 offset text).getD 0 + start.column)
        ((columnAt? 0 offset text).getD 0 + stop.column) =
      List.replicate (front ++ before).length ' ' ++
        '^' :: List.replicate (shown.length - 1) '_' := by
  have column : columnAt? 0 offset text = some front.length := by
    simp [columnAt?_eq, cut]
  have indent : front.length + start.column = (front ++ before).length := by
    simp [first, Position.after, Position.start]
  have width : front.length + stop.column - (front ++ before).length = shown.length := by
    simp [last, Position.after, Position.start]
    omega
  rw [column, Option.getD_some, underline, indent, width]

theorem extractTags_error_located
    (failed : extractTags options marker group lines = .error error) :
    let start := error.line.bodyOffset + error.source.start.offset
    let stop := error.line.bodyOffset + error.source.stop.offset
    ∃ line, lines[error.line.index]? = some line ∧
      Tag.parse options error.line.body = .error error.source ∧
      (∃ front blanks, Blank blanks ∧
        cutAt? error.line.bodyOffset line.toList = some (front, error.line.body.toList ++ blanks)) ∧
      start ≤ stop ∧ stop ≤ byteLength line.toList ∧
      ∃ before shown after, cutAt? start line.toList = some (before, shown ++ after) ∧
        cutAt? stop line.toList = some (before ++ shown, after) ∧
        error.report lines = "ERROR AT LINE " ++ (error.line.index + 1).repr ++ ":\n" ++ line
          ++ "\n" ++ String.ofList (List.replicate before.length ' ' ++
            '^' :: List.replicate (shown.length - 1) '_')
          ++ "\n" ++ error.notice.text ++ "\n\n" := by
  intro start stop
  obtain ⟨⟨line, found, accepted⟩, wrong, _⟩ := extractTags_eq_error_iff error |>.mp failed
  obtain ⟨front, blanks, whole, blank, offset, trimmed⟩ :=
    TagLine.ofLine?_parts (TagLine.accept?_eq_some_iff.mp accepted).1
  have shows := Tag.parse_shows wrong
  rw [trimEnd_of_trimmed trimmed] at shows
  obtain ⟨before, shown, rest, body, first, last⟩ := Cursor.shows_split shows
  have cut : cutAt? error.line.bodyOffset line.toList =
      some (front, error.line.body.toList ++ blanks) := cutAt?_eq_some_iff.mpr ⟨whole, offset⟩
  have startOffset : start = byteLength (front ++ before) := by
    simp [start, first, offset, Position.after, Position.start]
  have stopOffset : stop = byteLength (front ++ before ++ shown) := by
    simp [stop, last, offset, Position.after, Position.start]
  have split : line.toList = front ++ before ++ (shown ++ (rest ++ blanks)) := by
    rw [whole, body]
    simp
  refine ⟨line, found, wrong, ⟨front, blanks, blank, cut⟩, ?_, ?_, front ++ before, shown,
    rest ++ blanks, ?_, ?_,
    by rw [report_eq found, underline_eq cut first last]⟩
  · rw [startOffset, stopOffset, byteLength_append (front ++ before)]
    exact Nat.le_add_right _ _
  · rw [stopOffset, split, ← List.append_assoc, byteLength_append (front ++ before ++ shown)]
    exact Nat.le_add_right _ _
  · exact cutAt?_eq_some_iff.mpr ⟨split, startOffset.symm⟩
  · exact cutAt?_eq_some_iff.mpr ⟨by rw [split, ← List.append_assoc], stopOffset.symm⟩

theorem indented_group_located :
    let line := "\u3000+é:b=09  "
    let error : LineError := ⟨⟨1, 7, ⟨"é", "b"⟩, "b=09"⟩, ⟨.notOctal "09", ⟨2, 2⟩, ⟨4, 4⟩⟩⟩
    extractTags {} "+" none ["prose", line] = .error error ∧
      error.report ["prose", line] = "ERROR AT LINE 2:\n" ++ line ++ "\n"
        ++ "      ^_" ++ "\n" ++ error.notice.text ++ "\n\n" := by
  intro line error
  have failed : extractTags {} "+" none ["prose", line] = .error error := by
    decide +kernel
  obtain ⟨there, found, -, -, -, -, before, shown, after, first, last, report⟩ :=
    extractTags_error_located failed
  obtain rfl : line = there := by simpa [error] using found
  have cut : cutAt? 9 line.toList = some ("\u3000+é:b=".toList, "09  ".toList) := by
    decide +kernel
  obtain ⟨rfl, fault⟩ : "\u3000+é:b=".toList = before ∧ "09  ".toList = shown ++ after := by
    simpa using cut.symm.trans first
  have cutAfter : cutAt? 11 line.toList = some ("\u3000+é:b=09".toList, "  ".toList) := by
    decide +kernel
  obtain ⟨-, rfl⟩ : "\u3000+é:b=09".toList = "\u3000+é:b=".toList ++ shown ∧
      "  ".toList = after := by
    simpa using cutAfter.symm.trans last
  obtain rfl : "09".toList = shown := List.append_cancel_right fault
  have title : "ERROR AT LINE " ++ (error.line.index + 1).repr ++ ":\n" = "ERROR AT LINE 2:\n" := by
    decide +kernel
  have marks : List.replicate "\u3000+é:b=".toList.length ' ' ++
      '^' :: List.replicate ("09".toList.length - 1) '_' = "      ^_".toList := by
    decide +kernel
  exact ⟨failed, by rw [report, title, marks, String.ofList_toList]⟩

end Report
end CommentTags
