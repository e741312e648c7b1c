import Mathlib.Data.List.Basic
import CommentTags.Proofs.Extraction.Filing

/- Lines put together again from an extraction. Marker, group and body are the whole of a tag line
   but for the blanks around it. So the lines that are put together from the files are tag lines
   that stand for the same files, whatever order they had among the lines that were read. -/
namespace CommentTags
open Unicode

theorem trim_trim (text : List Char) : trim (trim text) = trim text := by
  obtain ⟨blanks, -, split⟩ := trimEnd_append (trimStart text)
  have stops : Stops isWhiteSpace (trim text) := by
    intro c first
    apply dropWhile_stops isWhiteSpace text c
    rw [← trimStart, split, Option.mem_def, List.head?_append, ← trim, first, Option.some_or]
  have kept : ([] ++ trim text).dropWhile isWhiteSpace = trim text :=
    dropWhile_run (by simp) stops
  rw [List.nil_append] at kept
  rw [trim, trimStart, kept]
  exact trimEnd_of_trimmed (trimEnd_trimmed _)

def markLine (marker : String) (id : Identifier) (body : String) : String :=
  marker ++ id.lead ++ body

def rebuildLines (marker : String) (filed : Keyed Identifier (List String)) : List String :=
  filed.flatMap fun (id, bodies) => bodies.map (markLine marker id)

section Rebuilt
variable {marker : String} {group : Option String}

theorem TagLine.ofLine?_markLine {index : Nat} {text : String} {line : TagLine}
    (found : ofLine? marker index text = some line) :
    trim text.toList = (markLine marker line.identifier line.body).toList := by
  obtain ⟨marked, split, rfl⟩ := ofLine?_eq_some_iff.mp found
  rw [split, markLine, String.toList_append, String.toList_append, List.append_assoc,
    ofMarked_parts]

theorem filing?_markLine {text : String} {id : Identifier} {body : String}
    (filed : filing? marker group text = some (id, body)) :
    filing? marker group (markLine marker id body) = some (id, body) := by
  obtain ⟨marked, split, inGroup, entry⟩ := filing?_eq_some_iff.mp filed
  obtain ⟨rfl, rfl⟩ := Prod.mk.inj entry
  refine filing?_eq_some_iff.mpr ⟨marked, ?_, inGroup, rfl⟩
  rw [← split, ← trim_trim text.toList, split, markLine, String.toList_append,
    String.toList_append, List.append_assoc, TagLine.ofMarked_parts]

theorem rebuildLines_eq (filed : Keyed Identifier (List String)) :
    rebuildLines marker filed = filed.filings.map fun (id, body) => markLine marker id body := by
  simp only [rebuildLines, Keyed.filings, List.map_flatMap, List.map_map]
  rfl

theorem rebuildLines_filings (lines : List String) :
    (rebuildLines marker (extract marker group lines)).filterMap (filing? marker group) =
      (extract marker group lines).filings := by
  rw [rebuildLines_eq, List.filterMap_map]
  have kept : ∀ entry ∈ (extract marker group lines).filings,
      (filing? marker group ∘ fun (id, body) => markLine marker id body) entry = some entry := by
    rintro ⟨id, body⟩ member
    rw [extract_eq_fileAll] at member
    obtain ⟨text, -, filed⟩ := List.mem_filterMap.mp (Keyed.mem_of_filings member)
    exact filing?_markLine filed
  rw [List.filterMap_congr kept, List.filterMap_some]

end Rebuilt

/-- Trimmed, an accepted line is the marker, the group with its colon if there is one, and the body.
    Lines that are put together in this way from the files of an extraction have these files. -/
theorem extract_rebuildLines (marker : String) (group : Option String) (lines : List String) :
    (∀ line ∈ tagLines marker group lines, ∃ text, lines[line.index]? = some text ∧
      trim text.toList = (markLine marker line.identifier line.body).toList) ∧
    extract marker group (rebuildLines marker (extract marker group lines)) =
      extract marker group lines := by
  constructor
  · intro line accepted
    obtain ⟨text, found, taken⟩ := mem_tagLines_iff.mp accepted
    exact ⟨text, found, TagLine.ofLine?_markLine (TagLine.accept?_eq_some_iff.mp taken).1⟩
  · conv => lhs; rw [extract_eq_fileAll, rebuildLines_filings]
    exact Keyed.fileAll_filings extract_ordered extract_filled

theorem scattered_file_rebuilt :
    let lines := ["\t+b:c=1 ", "text", " +a ", "+b:c=x"]
    let filed : Keyed Identifier (List String) := [(⟨"", "a"⟩, ["a"]), (⟨"b", "c"⟩, ["c=1", "c=x"])]
    ⟨0, 4, ⟨"b", "c"⟩, "c=1"⟩ ∈ tagLines "+" none lines ∧
      trim "\t+b:c=1 ".toList = (markLine "+" ⟨"b", "c"⟩ "c=1").toList ∧
      extract "+" none lines = filed ∧ rebuildLines "+" filed = ["+a", "+b:c=1", "+b:c=x"] ∧
      extract "+" none ["+a", "+b:c=1", "+b:c=x"] = filed := by
  intro lines filed
  obtain ⟨whole, again⟩ := extract_rebuildLines "+" none lines
  have accepted : ⟨0, 4, ⟨"b", "c"⟩, "c=1"⟩ ∈ tagLines "+" none lines := by decide +kernel
  have files : extract "+" none lines = filed := by decide +kernel
  have rebuilt : rebuildLines "+" filed = ["+a", "+b:c=1", "+b:c=x"] := by decide +kernel
  obtain ⟨text, found, parts⟩ := whole _ accepted
  obtain rfl : "\t+b:c=1 " = text := Option.some.inj found
  rw [files, rebuilt] at again
  exact ⟨accepted, parts, files, rebuilt, again⟩

end CommentTags
