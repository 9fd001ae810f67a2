import GitPractice.Proofs.Provenance
import Mathlib.Data.List.Nodup

set_option autoImplicit false

namespace GitPractice

section
variable {commits : List Commit}

theorem eq_of_same_time (rising : commits.Pairwise fun earlier later => earlier.timestamp < later.timestamp)
    {first second : Commit} (firstMade : first ∈ commits) (secondMade : second ∈ commits)
    (same : first.timestamp = second.timestamp) : first = second := by
  have distinctTimes : (commits.map Commit.timestamp).Nodup :=
    List.pairwise_map.mpr (rising.imp Int.ne_of_lt)
  exact List.inj_on_of_nodup_map distinctTimes firstMade secondMade same

theorem by_time_falling (commits : List Commit) :
    (Log.byTime commits).Pairwise fun newer older => decide (older.timestamp ≤ newer.timestamp) = true := by
  apply List.pairwise_mergeSort
  · intro newest middle oldest newer older
    simp only [decide_eq_true_eq] at newer older ⊢
    exact Int.le_trans older newer
  · intro first second
    simpa only [Bool.or_eq_true, decide_eq_true_eq] using Int.le_total second.timestamp first.timestamp

theorem by_time_reverse (rising : commits.Pairwise fun earlier later => earlier.timestamp < later.timestamp) :
    Log.byTime commits = commits.reverse := by
  have held : (Log.byTime commits).Perm commits := List.mergeSort_perm commits _
  have falling : commits.reverse.Pairwise fun newer older =>
      decide (older.timestamp ≤ newer.timestamp) = true :=
    List.pairwise_reverse.mpr (rising.imp fun less => decide_eq_true (Int.le_of_lt less))
  refine (held.trans commits.reverse_perm.symm).eq_of_pairwise ?_ (by_time_falling commits) falling
  intro first second firstHeld secondHeld older newer
  have same := Int.le_antisymm (of_decide_eq_true newer) (of_decide_eq_true older)
  exact eq_of_same_time rising (held.mem_iff.mp firstHeld) (List.mem_reverse.mp secondHeld) same

end

def Commit.block (commit : Commit) (oldest : Bool) : List String :=
  commit.graphLine oldest :: commit.connectors oldest

theorem Log.graph_lines_from (commits : List Commit) (place : Nat) :
    graphLines commits = (commits.zipIdx place).flatMap fun entry =>
      entry.1.block (entry.2 + 1 == place + commits.length) := by
  induction commits generalizing place with
  | nil => rfl
  | cons commit older ih =>
      have last : (place + 1 == place + (commit :: older).length) = older.isEmpty := by
        cases older with
        | nil => simp
        | cons next others => simp
      have shifted : place + (commit :: older).length = place + 1 + older.length := by
        rw [List.length_cons, Nat.add_comm older.length, Nat.add_assoc]
      rw [graphLines, ih (place + 1), List.zipIdx_cons, List.flatMap_cons, last, shifted]
      rfl

/-- The text of a log of commits that stand from the newest to the oldest, before its end is trimmed. -/
def Log.body (isOneline isGraph : Bool) (newestFirst : List Commit) : String :=
  match isOneline, isGraph with
  | true, true => "\n".intercalate (newestFirst.zipIdx.flatMap fun entry =>
      entry.1.block (entry.2 + 1 == newestFirst.length))
  | true, false => "\n".intercalate (newestFirst.map fun commit => commit.shortId ++ " " ++ commit.message)
  | false, _ => "\n\n".intercalate (newestFirst.map fun commit => "\n".intercalate
      ["commit " ++ commit.id, "Author: " ++ commit.signature.name ++ " <" ++ commit.signature.email ++ ">",
       "Date: " ++ commit.date, "", "    " ++ commit.message])

theorem Commit.detailed_lines (commit : Commit) :
    commit.detailed = "\n".intercalate
      ["commit " ++ commit.id, "Author: " ++ commit.signature.name ++ " <" ++ commit.signature.email ++ ">",
       "Date: " ++ commit.date, "", "    " ++ commit.message] := by
  unfold detailed
  simp only [String.intercalate_cons_cons, String.intercalate_singleton, String.append_assoc]
  rfl

theorem Log.render_body {commits : List Commit} (isOneline isGraph : Bool)
    (byTime : byTime commits = commits.reverse) :
    render isOneline isGraph commits = Text.trimmedEnd (body isOneline isGraph commits.reverse) := by
  rw [render, text]
  cases isOneline with
  | false =>
      have lines : Commit.detailed = _ := funext Commit.detailed_lines
      rw [if_neg Bool.false_ne_true, detailed, lines]
      rfl
  | true =>
      cases isGraph with
      | false => rfl
      | true =>
          have lines := graph_lines_from commits.reverse 0
          rw [Nat.zero_add] at lines
          simp only [if_true, graph, byTime, lines, body]

theorem Commit.graph_line_parts (commit : Commit) (oldest : Bool) :
    commit.graphLine oldest =
      (if commit.looksMerged then "*   " else if oldest then "* " else "| * ") ++ commit.shortId ++ " " ++
        commit.message ++
        (match commit.mergedFrom, commit.mergedInto with
          | some source, some target => " (" ++ source ++ " → " ++ target ++ ")"
          | _, _ => "") := by
  rw [graphLine, glyph, oneline, merge?]
  cases commit.mergedFrom with
  | none => simp [String.append_assoc]
  | some source =>
      cases commit.mergedInto with
      | none => simp [String.append_assoc]
      | some target => simp [arrow, String.append_assoc]

theorem Commit.connectors_nil_iff (commit : Commit) (oldest : Bool) :
    commit.connectors oldest = [] ↔ commit.looksMerged = false ∨ oldest = true := by
  rw [connectors]
  cases commit.looksMerged with
  | false => simp
  | true => cases oldest <;> simp

namespace Session

theorem newest_first (settings : Settings) (ids : IdSource) (course : List Event) :
    let session := (start settings ids).after course
    let repository := session.repository
    let newestFirst := repository.commits.reverse
    (∀ branch, repository.tip? branch = (repository.commitsOn branch).getLast?) ∧
    repository.latest? = Repository.newest? repository.commits ∧
    Log.byTime repository.commits = newestFirst ∧
    (∀ line isOneline isGraph, Command.parse line = .ok (.log isOneline isGraph) →
      session.evaluate line =
        (if repository.commits = [] then .refused (.noCommits repository.current)
          else .done (Text.trimmedEnd (Log.body isOneline isGraph newestFirst)), session)) ∧
    (∀ (commit : Commit) (oldest : Bool),
      commit.block oldest = commit.graphLine oldest :: commit.connectors oldest ∧
      commit.graphLine oldest =
        (if commit.looksMerged then "*   " else if oldest then "* " else "| * ") ++ commit.shortId ++ " " ++
          commit.message ++
          (match commit.mergedFrom, commit.mergedInto with
            | some source, some target => " (" ++ source ++ " → " ++ target ++ ")"
            | _, _ => "") ∧
      (commit.connectors oldest = [] ↔ commit.looksMerged = false ∨ oldest = true)) := by
  intro session repository newestFirst
  have timed : Timed repository.commits := after_timed settings ids course
  have rising := timed_increasing repository.commits timed
  have byTime := by_time_reverse rising
  -- No two times are equal, so the sort has no order of its own to keep.
  refine ⟨?_, (newest_eq_last _ rising).symm, byTime, ?_, ?_⟩
  · intro branch
    exact tip_eq_last_on repository branch timed
  · intro line isOneline isGraph asked
    rw [evaluate_log asked, Log.render_body isOneline isGraph byTime]
  · intro commit oldest
    exact ⟨rfl, commit.graph_line_parts oldest, commit.connectors_nil_iff oldest⟩

def mixedCommits : List Commit :=
  [⟨"abc", "First", Config.fallback, 1640995200000, "dev", none, none, none, none⟩,
   ⟨"0000001", "Branch from main", Config.fallback, 1640995500000, "topic", none, none, some "main", none⟩,
   ⟨"0000002", "Merge branch 'dev' into topic", Config.fallback, 1640995800000, "topic", some "dev",
     some "topic", none, none⟩]

def branchedCourse : List Event := [.typed "git checkout -b dev"]

def branchedCommit : Commit :=
  ⟨"0000001", "Branch from main", Config.fallback, 1640995200000, "dev", none, none, some "main", none⟩

theorem mixed_course_graph :
    let session := (start {} .sequential).after mixedCourse
    let branched := (start {} .sequential).after branchedCourse
    session.evaluate "git log --graph --oneline" =
        (.done ("*   0000002 Merge branch 'dev' into topic (dev → topic)\n|\\  \n| * dev commit\n" ++
          "| * 0000001 Branch from main\n* abc First"), session) ∧
      branched.evaluate "git log" =
        (.done ("commit 0000001\nAuthor: Git Learner <learner@gitlearner.com>\n" ++
          "Date: Sat Jan 1 00:00:00 2022 +0000\n\n    Branch from main"), branched) := by
  intro session branched
  obtain ⟨_, _, _, logged, _⟩ := newest_first {} .sequential mixedCourse
  obtain ⟨_, _, _, told, _⟩ := newest_first {} .sequential branchedCourse
  have commits : session.repository.commits = mixedCommits := by decide +kernel
  have filled : mixedCommits ≠ [] := List.cons_ne_nil _ _
  have commit : branched.repository.commits = [branchedCommit] := by decide +kernel
  have drawn : Text.trimmedEnd (Log.body true true mixedCommits.reverse) =
      "*   0000002 Merge branch 'dev' into topic (dev → topic)\n|\\  \n| * dev commit\n" ++
        "| * 0000001 Branch from main\n* abc First" := by
    decide +kernel
  have written : Text.trimmedEnd (Log.body false false [branchedCommit].reverse) =
      "commit 0000001\nAuthor: Git Learner <learner@gitlearner.com>\n" ++
        "Date: Sat Jan 1 00:00:00 2022 +0000\n\n    Branch from main" := by
    decide +kernel
  have graphed := logged "git log --graph --oneline" true true rfl
  have detailed := told "git log" false false rfl
  rw [commits, if_neg filled, drawn] at graphed
  rw [commit, if_neg (List.cons_ne_nil _ _), written] at detailed
  exact ⟨graphed, detailed⟩

end Session

end GitPractice
