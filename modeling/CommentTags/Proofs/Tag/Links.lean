import CommentTags.Proofs.Tag.Canonical
import CommentTags.Proofs.Tag.Local

/- Links compose. Behind a head, an equals sign and a plus sign, a text is read as it is read alone,
   one level deeper. A tag becomes the linked tag, and an error keeps its cause and is moved behind
   the plus sign. -/
namespace CommentTags
namespace Config

theorem run_linked {spelling : HeadSpelling} {c : Char} {tail : List Char} (valid : spelling.Valid)
    (first : isNameStart c = true) (maxDepth : Nat) :
    (run ⟨false, maxDepth + 1⟩
        (start [] (.start (spelling.text ++ '=' :: '+' :: c :: tail)))).2 =
      surrounded (spelling.text ++ ['=', '+']) [spelling.head]
        (run ⟨false, maxDepth⟩ (start [] (.start (c :: tail)))).2 := by
  have raw : (Ending.raw ('+' :: c :: tail)).Valid true := ⟨rfl, List.cons_ne_nil _ _⟩
  obtain ⟨after, read, same⟩ := run_to_head blank_nil valid (list_stops spelling.list raw)
  obtain ⟨stage, cursor, outer, head, -⟩ := read
  have unread : after.cursor.rest = '=' :: '+' :: c :: tail := by
    rw [cursor]
    rfl
  have shallow : after.outer.length < maxDepth + 1 := by
    rw [outer]
    exact Nat.succ_pos maxDepth
  let front := spelling.text ++ ['=', '+']
  let alone := start [] (.start (c :: tail))
  calc (run ⟨false, maxDepth + 1⟩
        (start [] (.start (spelling.text ++ '=' :: '+' :: c :: tail)))).2
      = (run ⟨false, maxDepth + 1⟩ after).2 := congrArg Prod.snd (same _)
    _ = (run ⟨false, maxDepth + 1⟩
          (start (after.head :: after.outer) (after.cursor.move ['=', '+'] (c :: tail)))).2 :=
        congrArg Prod.snd (run_link stage rfl first shallow unread)
    _ = (run ⟨false, maxDepth + 1⟩ (alone.inside front [spelling.head] (c :: tail))).2 := by
        rw [cursor, head, outer, Cursor.move, ← Position.after_append]
        rfl
    _ = surrounded front [spelling.head] (run ⟨false, maxDepth⟩ alone).2 :=
        run_inside ⟨false, maxDepth⟩ alone front [spelling.head]

end Config

namespace Tag

theorem parse_behind_head {head : Head} {text : String} {c : Char} {tail : List Char}
    (formed : head.WellFormed) (front : text.toList = c :: tail) (first : isNameStart c = true)
    (maxDepth : Nat) :
    parse ⟨false, maxDepth + 1⟩ (head.text ++ "=+" ++ text) =
      Config.surrounded (head.text.toList ++ ['=', '+']) [head]
        (parse ⟨false, maxDepth⟩ text) := by
  obtain ⟨spelling, valid, written, rfl⟩ := head_written formed
  have dark : Trimmed [c] := (endsDark_of_dark (List.cons_ne_nil c []) (by
    simpa using name_start_not_white first)).trimmed
  have alone : trimEnd text.toList = c :: trimEnd tail := by
    rw [front]
    exact trimEnd_behind dark tail
  have linked : trimEnd (spelling.head.text ++ "=+" ++ text).toList =
      spelling.text ++ '=' :: '+' :: c :: trimEnd tail := by
    have something : trimEnd text.toList ≠ [] := by simp [alone]
    rw [String.toList_append, trimEnd_front _ something, alone, written]
    simp
  unfold parse run
  rw [alone, linked, Config.run_linked valid first, written]

theorem parse_linked {options : Options} {original text : String} {head : Head} {c : Char}
    {tail : List Char} (read : parse options original = .ok (.single head .none))
    (front : text.toList = c :: tail) (first : isNameStart c = true) (maxDepth : Nat) :
    let written := (single head .none).text
    let moved (p : Position) : Position :=
      ⟨p.column + (written.toList.length + 2), p.offset + (byteLength written.toList + 2)⟩
    (∀ tag, parse ⟨false, maxDepth⟩ text = .ok tag →
      parse ⟨false, maxDepth + 1⟩ (written ++ "=+" ++ text) = .ok (.link head tag)) ∧
    ∀ error, parse ⟨false, maxDepth⟩ text = .error error →
      ∃ fault : Fault, fault.layer = error.fault.layer ∧
        fault = (if error.fault = .tooDeep maxDepth then .tooDeep (maxDepth + 1)
          else error.fault) ∧
        parse ⟨false, maxDepth + 1⟩ (written ++ "=+" ++ text) =
          .error ⟨fault, moved error.start, moved error.stop⟩ := by
  intro written moved
  have formed : head.WellFormed := (wellFormed_of_parse read).1.1
  have plain : written = head.text := String.append_empty
  have behind := parse_behind_head formed front first maxDepth
  rw [plain]
  constructor
  · intro tag accepted
    rw [behind, accepted]
    rfl
  · intro error failed
    have places (p : Position) : p.after (head.text.toList ++ ['=', '+']) = moved p := by
      have width : '='.utf8Size + '+'.utf8Size = 2 := by decide
      simp [Position.after, moved, plain, width]
    obtain ⟨_, _, _, stops, _⟩ := Config.run_local ⟨false, maxDepth⟩
      (.start [] (.start (trimEnd text.toList)))
    have deeper := error.fault.inside_next (stops error failed).2
    refine ⟨error.fault.inside 1, ?_, deeper, ?_⟩
    · cases error.fault <;> rfl
    · rw [behind, failed, ← places, ← places]
      rfl

theorem too_deep_behind_head :
    let first : Head := ⟨"é", [⟨"x", .int "1" 1⟩]⟩
    let inner := link ⟨"b", []⟩ (single ⟨"c", []⟩ .none)
    parse ⟨false, 0⟩ "b=+c" = .error ⟨.tooDeep 0, ⟨2, 2⟩, ⟨3, 3⟩⟩ ∧
      parse ⟨false, 1⟩ "é(x: 1)=+b=+c" = .error ⟨.tooDeep 1, ⟨11, 12⟩, ⟨12, 13⟩⟩ ∧
      parse ⟨false, 2⟩ "é(x: 1)=+b=+c" = .ok (.link first inner) := by
  intro first inner
  have read : parse {} " é( x:1 )" = .ok (.single first .none) := by decide +kernel
  have written : (single first .none).text = "é(x: 1)" := by decide
  have failed : parse ⟨false, 0⟩ "b=+c" = .error ⟨.tooDeep 0, ⟨2, 2⟩, ⟨3, 3⟩⟩ := by decide +kernel
  have accepted : parse ⟨false, 1⟩ "b=+c" = .ok inner := by decide +kernel
  have front : "b=+c".toList = 'b' :: "=+c".toList := by decide
  obtain ⟨fault, -, cause, longer⟩ := (parse_linked read front (by decide) 0).2 _ failed
  have linked := (parse_linked read front (by decide) 1).1 _ accepted
  rw [written] at longer linked
  rw [if_pos rfl] at cause
  rw [cause] at longer
  exact ⟨failed, longer, linked⟩

end Tag
end CommentTags
