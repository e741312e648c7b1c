import CommentTags.Token.Reading

/- Quoted text. Between double quotes a backslash stands before a double quote or a backslash and
   nowhere else; between backticks every character stands for itself. -/
namespace CommentTags

def needsEscape (c : Char) : Bool := c == '"' || c == '\\'

def escape (text : List Char) : List Char :=
  text.flatMap fun c => if needsEscape c then ['\\', c] else [c]

def quote (text : List Char) : List Char := '"' :: (escape text ++ ['"'])

/-- Goes on behind an opening double quote; `content` is what was read so far, last character
    first. A bad escape is shown by its character alone. -/
def readEscaped (opening : Position) (content : List Char) (here : Position) :
    List Char → Reading (List Char)
  | [] => .fail .openString opening ⟨here, []⟩
  | c :: rest =>
    if c = '"' then .read content.reverse ⟨here.past c, rest⟩
    else if c = '\\' then
      match rest with
      | [] => .fail .openString opening ⟨here.past c, []⟩
      | escaped :: later =>
        if needsEscape escaped then
          readEscaped opening (escaped :: content) ((here.past c).past escaped) later
        else .fail (.badEscape escaped) (here.past c) ⟨(here.past c).past escaped, later⟩
    else readEscaped opening (c :: content) (here.past c) rest

def readVerbatim (opening : Position) (here : Cursor) : Reading (List Char) :=
  let (content, beyond) := here.takeRun (· != '`')
  match beyond.rest with
  | [] => .fail .openBacktick opening beyond
  | _ :: _ => .read content beyond.skip

def readQuoted (here : Cursor) : Reading (List Char) :=
  match here.rest with
  | '"' :: rest => readEscaped here.position [] (here.position.past '"') rest
  | '`' :: _ => readVerbatim here.position here.skip
  | _ => .fail .noQuote here.position here

theorem readEscaped_passes (opening : Position) (content : List Char) (here : Position)
    (text : List Char) :
    ∃ passed, Cursor.Passes ⟨here, text⟩ passed (readEscaped opening content here text).cursor := by
  fun_induction readEscaped opening content here text with
  | case1 => exact ⟨[], Cursor.passes_nothing _⟩
  | case2 _ here rest => exact ⟨['"'], by simp [Cursor.Passes, Reading.read]⟩
  | case3 _ here => exact ⟨['\\'], by simp [Cursor.Passes, Reading.fail]⟩
  | case4 _ here escaped later _ _ ih =>
    obtain ⟨passed, move⟩ := ih
    exact ⟨'\\' :: escaped :: passed, by simpa [Cursor.Passes] using move⟩
  | case5 _ here escaped later =>
    exact ⟨['\\', escaped], by simp [Cursor.Passes, Reading.fail]⟩
  | case6 _ here c rest _ _ ih =>
    obtain ⟨passed, move⟩ := ih
    exact ⟨c :: passed, by simpa [Cursor.Passes] using move⟩

theorem readVerbatim_passes (opening : Position) (here : Cursor) :
    ∃ passed, here.Passes passed (readVerbatim opening here).cursor := by
  have run := Cursor.takeRun_passes here (· != '`')
  unfold readVerbatim
  simp only
  split
  · exact ⟨_, run⟩
  · rename_i c rest front
    exact ⟨_, Cursor.passes_append run (Cursor.skip_passes front)⟩

theorem readQuoted_passes (here : Cursor) :
    ∃ passed, here.Passes passed (readQuoted here).cursor ∧
      (passed = [] → ∃ error, (readQuoted here).result = .error error) := by
  unfold readQuoted
  split
  · rename_i rest front
    obtain ⟨passed, move⟩ := readEscaped_passes here.position [] (here.position.past '"') rest
    refine ⟨'"' :: passed, ⟨?_, ?_⟩, by simp⟩
    · rw [front, List.cons_append, ← move.1]
    · rw [move.2, Position.after_cons]
  · rename_i rest front
    obtain ⟨passed, move⟩ := readVerbatim_passes here.position here.skip
    exact ⟨_, Cursor.passes_append (Cursor.skip_passes front) move, by simp⟩
  · exact ⟨[], Cursor.passes_nothing _, fun _ => ⟨_, rfl⟩⟩

end CommentTags
