import GitPractice.CommandLine
import GitPractice.Proofs.Replay

set_option autoImplicit false

namespace GitPractice

theorem joined_to_list (texts : List String) : ("".intercalate texts).toList = texts.flatMap String.toList := by
  rw [String.toList_intercalate]
  induction texts with
  | nil => rfl
  | cons text rest ih =>
      rw [List.flatMap_cons, ← ih]
      cases rest with
      | nil => simp [List.intercalate]
      | cons next more => simp [List.intercalate]

theorem printed_all_to_list (entries : List Entry) :
    (printedAll entries).toList = entries.flatMap fun entry => entry.printed.toList := by
  rw [printedAll, joined_to_list, List.flatMap_map]

theorem printed_all_append (earlier later : List Entry) :
    printedAll (earlier ++ later) = printedAll earlier ++ printedAll later := by
  rw [← String.toList_inj, String.toList_append, printed_all_to_list, printed_all_to_list, printed_all_to_list,
    List.flatMap_append]

namespace Script

theorem lines_of_line {line : String} (whole : '\n' ∉ line.toList) (rest : String) :
    linesOf (line ++ "\n" ++ rest) = line :: linesOf rest := by
  have split : (line ++ "\n" ++ rest).toList = line.toList ++ '\n' :: rest.toList := by simp
  rw [linesOf, split, List.splitOn_append_cons_self_of_not_mem whole, List.map_cons, String.ofList_toList, linesOf]

section
variable {lines : List String} (apart : ∀ line ∈ lines, '\n' ∉ line.toList)
include apart

theorem lines_of_intercalate (filled : lines ≠ []) : linesOf ("\n".intercalate lines) = lines := by
  have split : (['\n'].intercalate (lines.map String.toList)).splitOn '\n' = lines.map String.toList :=
    List.splitOn_intercalate '\n' (by simpa using apart) (by simpa using filled)
  rw [linesOf, String.toList_intercalate, show "\n".toList = ['\n'] from rfl, split, List.map_map]
  exact List.map_id'' (fun line => String.ofList_toList) lines

end

theorem number_texts (texts : List String) (n : Nat) : (number n texts).map Prod.snd = texts := by
  induction texts generalizing n with
  | nil => rfl
  | cons text rest ih => rw [number, List.map_cons, ih]

def commands (texts : List String) : List String := (texts.map Text.trimmed).filter isRun

def numbered (n : Nat) (texts : List String) : List (Nat × String) :=
  (number n (texts.map Text.trimmed)).filter fun line => isRun line.2

theorem numbered_commands (texts : List String) (n : Nat) : (numbered n texts).map Prod.snd = commands texts := by
  have listed := number_texts (texts.map Text.trimmed) n
  rw [numbered, commands, ← listed, List.filter_map, listed]
  rfl

theorem commands_append (earlier later : List String) :
    commands (earlier ++ later) = commands earlier ++ commands later := by
  rw [commands, List.map_append, List.filter_append, commands, commands]

theorem number_append (earlier later : List String) (n : Nat) :
    number n (earlier ++ later) = number n earlier ++ number (n + earlier.length) later := by
  induction earlier generalizing n with
  | nil => rfl
  | cons text rest ih =>
      rw [List.cons_append, number, number, ih, List.cons_append, List.length_cons, Nat.add_assoc,
        Nat.add_comm 1]

theorem numbered_split {text : String} (runs : isRun (Text.trimmed text) = true) (earlier later : List String)
    (n : Nat) :
    numbered n (earlier ++ text :: later) =
      numbered n earlier ++ (n + earlier.length, Text.trimmed text) :: numbered (n + earlier.length + 1) later := by
  simp only [numbered, List.map_append, List.map_cons, number_append, number, List.filter_append,
    List.filter_cons, runs, if_true, List.length_map]

theorem run_through (session : Session) (script : List (Nat × String)) :
    ∃ entries, (session.executeAll (script.map Prod.snd)).transcript = session.transcript.append entries ∧
      run false session script = ⟨printedAll entries, session.executeAll (script.map Prod.snd), none⟩ := by
  induction script generalizing session with
  | nil => exact ⟨[], by simp [Session.executeAll, Transcript.append], rfl⟩
  | cons line rest ih =>
      obtain ⟨entries, later, ran⟩ := ih (session.execute line.2).2
      refine ⟨(session.execute line.2).1 ++ entries, Session.execute_all_transcript session later, ?_⟩
      rw [run, ran, printed_all_append]
      rfl

end Script

namespace CommandLine

theorem run_script_commands {session : Session} (empty : session.transcript = {}) (name text : String)
    (state : Bool) :
    let reached := session.executeAll (Script.commands (Script.linesOf text))
    runScript name text false state session =
      .success (printedAll reached.transcript.entries ++ if state then stateText reached.repository else "") := by
  intro reached
  have commanded : (Script.lines text).map Prod.snd = Script.commands (Script.linesOf text) :=
    Script.numbered_commands _ 1
  obtain ⟨entries, whole, ran⟩ := Script.run_through session (Script.lines text)
  rw [commanded] at whole ran
  rw [empty, Transcript.append, List.nil_append] at whole
  simp only [runScript, ran, reached, whole]

end CommandLine

end GitPractice
