import GitPractice.Proofs.Seed
import GitPractice.Proofs.Step
import Mathlib.Algebra.Group.Nat.Defs

set_option autoImplicit false

namespace GitPractice

theorem Text.digits_length {base width n : Nat} (large : 1 < base) (filled : 0 < width)
    (fits : n < base ^ width) : (digits base width n).toList.length = width := by
  have short := (Nat.length_toDigits_le_iff large filled).mpr fits
  rw [digits_to_list, List.length_leftpad, Nat.max_eq_left short]

namespace IdSource

theorem numbered_injective {m n : Nat} (small : m < modulus) (smallOther : n < modulus)
    (same : numbered m = numbered n) : m = n := by
  have rest := Text.digits_injective (by decide) (by decide) same
  rwa [Nat.mod_eq_of_lt small, Nat.mod_eq_of_lt smallOther] at rest

theorem numbered_length (n : Nat) : (numbered n).toList.length = idLength := by
  have fits : n % modulus < 16 ^ idLength := Nat.mod_lt n (by decide)
  exact Text.digits_length (by decide) (by decide) fits

end IdSource

/-- The commits have the ids of rising numbers, above the first bound and up to the second one. -/
def Drawn (low high : Nat) (commits : List Commit) : Prop :=
  ∃ numbers : List Nat, commits.map Commit.id = numbers.map IdSource.numbered ∧
    numbers.Pairwise (· < ·) ∧ ∀ number ∈ numbers, low < number ∧ number ≤ high

theorem drawn_nil (low high : Nat) : Drawn low high [] :=
  ⟨[], rfl, List.Pairwise.nil, by simp⟩

theorem drawn_widen {low high lower higher : Nat} {commits : List Commit} (drawn : Drawn low high commits)
    (below : lower ≤ low) (above : high ≤ higher) : Drawn lower higher commits := by
  obtain ⟨numbers, ids, rising, bounds⟩ := drawn
  refine ⟨numbers, ids, rising, ?_⟩
  intro number present
  obtain ⟨aboveLow, belowHigh⟩ := bounds number present
  exact ⟨Nat.lt_of_le_of_lt below aboveLow, Nat.le_trans belowHigh above⟩

theorem drawn_cons {low high : Nat} {commits : List Commit} (commit : Commit)
    (id : commit.id = IdSource.numbered (low + 1)) (reached : low + 1 ≤ high)
    (drawn : Drawn (low + 1) high commits) : Drawn low high (commit :: commits) := by
  obtain ⟨numbers, ids, rising, bounds⟩ := drawn
  refine ⟨(low + 1) :: numbers, ?_, ?_, ?_⟩
  · rw [List.map_cons, List.map_cons, id, ids]
  · exact List.pairwise_cons.mpr ⟨fun number present => (bounds number present).1, rising⟩
  · intro number present
    rcases List.mem_cons.mp present with rfl | later
    · exact ⟨Nat.lt_succ_self low, reached⟩
    · obtain ⟨aboveLow, belowHigh⟩ := bounds number later
      exact ⟨Nat.lt_of_succ_lt aboveLow, belowHigh⟩

theorem drawn_concat {low high : Nat} {commits : List Commit} (last : Commit)
    (id : last.id = IdSource.numbered (high + 1)) (reached : low ≤ high)
    (drawn : Drawn low high commits) : Drawn low (high + 1) (commits ++ [last]) := by
  obtain ⟨numbers, ids, rising, bounds⟩ := drawn
  refine ⟨numbers ++ [high + 1], ?_, ?_, ?_⟩
  · rw [List.map_append, List.map_append, ids, List.map_singleton, List.map_singleton, id]
  · refine List.pairwise_append.mpr ⟨rising, List.pairwise_singleton _ _, ?_⟩
    intro number present newest isNewest
    rw [List.mem_singleton.mp isNewest]
    exact Nat.lt_succ_of_le (bounds number present).2
  · intro number present
    rcases List.mem_append.mp present with earlier | newest
    · obtain ⟨aboveLow, belowHigh⟩ := bounds number earlier
      exact ⟨aboveLow, Nat.le_succ_of_le belowHigh⟩
    · rw [List.mem_singleton.mp newest]
      exact ⟨Nat.lt_succ_of_le reached, Nat.le_refl _⟩

theorem drawn_ids_distinct {low high : Nat} {commits : List Commit} (few : high < IdSource.modulus)
    (drawn : Drawn low high commits) : (commits.map Commit.id).Nodup := by
  obtain ⟨numbers, ids, rising, bounds⟩ := drawn
  rw [ids]
  refine List.pairwise_map.mpr (rising.imp_of_mem ?_)
  intro first second firstDrawn secondDrawn less same
  have firstSmall := Nat.lt_of_le_of_lt (bounds first firstDrawn).2 few
  have secondSmall := Nat.lt_of_le_of_lt (bounds second secondDrawn).2 few
  exact absurd (IdSource.numbered_injective firstSmall secondSmall same) (Nat.ne_of_lt less)

theorem drawn_id {low high : Nat} {commits : List Commit} (drawn : Drawn low high commits)
    {commit : Commit} (present : commit ∈ commits) : ∃ number, commit.id = IdSource.numbered number := by
  obtain ⟨numbers, ids, _, _⟩ := drawn
  have listed : commit.id ∈ numbers.map IdSource.numbered := by
    rw [← ids]
    exact List.mem_map_of_mem present
  obtain ⟨number, _, same⟩ := List.mem_map.mp listed
  exact ⟨number, same.symm⟩

structure State.Numbered (state : State) : Prop where
  stream : state.ids.stream = IdSource.sequential.stream
  drawn : Drawn 0 state.ids.drawn state.repository.commits

theorem IdSource.peek_sequential {source : IdSource} (stream : source.stream = sequential.stream) :
    source.peek = .id (numbered (source.drawn + 1)) := by
  rw [peek, stream]
  rfl

theorem State.numbered_step {settings : Settings} {command : Command} {before after : State}
    (step : State.Step settings command before after) (numbered : before.Numbered) : after.Numbered := by
  obtain ⟨stream, drawn⟩ := numbered
  cases step with
  | still repository ids =>
      refine ⟨by rw [ids, stream], ?_⟩
      rw [repository, ids]
      exact drawn
  | broken reason peeked repository ids =>
      rw [IdSource.peek_sequential stream] at peeked
      exact absurd peeked (by simp)
  | reset asked repository ids =>
      refine ⟨by rw [ids, stream], ?_⟩
      rw [repository]
      exact drawn_nil 0 _
  | relabel kept sound ids =>
      refine ⟨by rw [ids, stream], ?_⟩
      rw [kept, ids]
      exact drawn
  | record draft onto id peeked kept sound here sourced repository ids =>
      rw [IdSource.peek_sequential stream] at peeked
      refine ⟨by rw [ids]; exact stream, ?_⟩
      rw [repository, ids, Repository.append, kept]
      exact drawn_concat _ (Draw.id.inj peeked).symm (Nat.zero_le _) drawn

theorem Seed.commit_all_drawn (branches : List String) (configured : Signature) (entries : List SeedCommit)
    (unnamed : ∀ entry ∈ entries, entry.id = none) (position : Nat) (ids : IdSource)
    (stream : ids.stream = IdSource.sequential.stream) (commits : List Commit)
    (made : (commitAll branches configured position entries ids).1 = .done commits) :
    Drawn ids.drawn (commitAll branches configured position entries ids).2.drawn commits := by
  induction entries generalizing position ids commits with
  | nil =>
      cases made
      exact drawn_nil _ _
  | cons entry rest ih =>
      have identified : entry.identify ids = (.id (IdSource.numbered (ids.drawn + 1)), ids.next) := by
        rw [SeedCommit.identify, unnamed entry List.mem_cons_self, IdSource.peek_sequential stream]
      rw [commitAll, identified] at made ⊢
      split at made
      · rename_i known
        rw [if_pos known]
        obtain ⟨later, laterMade, rfl⟩ := (Outcome.map_done_iff _ _ _).mp made
        have others := ih (fun entry present => unnamed entry (List.mem_cons_of_mem _ present))
          (position + 1) ids.next stream later laterMade
        have grown := (commit_all_ids branches configured rest (position + 1) ids.next).2
        exact drawn_cons _ rfl grown others
      · exact absurd made (by simp)

theorem Seed.build_drawn (seed : Seed) (unnamed : ∀ entry ∈ seed.commits, entry.id = none)
    (configured : Signature) (ids : IdSource) (stream : ids.stream = IdSource.sequential.stream)
    (repository : Repository) (built : (seed.build configured ids).1 = .done repository) :
    Drawn 0 (seed.build configured ids).2.drawn repository.commits := by
  rw [build] at built ⊢
  split at built
  · exact absurd built (by simp)
  · rename_i filled
    rw [if_neg filled]
    cases started : seed.start with
    | error fault => exact absurd built (by simp [started])
    | ok branch =>
        rw [started] at built
        obtain ⟨commits, made, rfl⟩ := (Outcome.map_done_iff _ _ _).mp built
        have drawn := commit_all_drawn seed.branches configured seed.commits unnamed 0 ids stream commits made
        exact drawn_widen drawn (Nat.zero_le _) (Nat.le_refl _)

def Event.Unnamed : Event → Prop
  | .typed _ | .evaluated _ => True
  | .loaded seed => ∀ entry ∈ seed.commits, entry.id = none

namespace Session

theorem evaluate_numbered {session : Session} (line : String) (numbered : session.toState.Numbered) :
    (session.evaluate line).2.toState.Numbered := by
  rcases evaluate_step session line with same | ⟨command, _, step⟩
  · rw [same]
    exact numbered
  · exact State.numbered_step step numbered

theorem load_numbered {session : Session} (seed : Seed) (unnamed : ∀ entry ∈ seed.commits, entry.id = none)
    (numbered : session.toState.Numbered) : (session.load seed).2.toState.Numbered := by
  obtain ⟨stream, drawn⟩ := numbered
  obtain ⟨sameStream, later⟩ := Seed.build_ids seed session.config.signature session.ids
  have ids := load_ids session seed
  refine ⟨by rw [ids, sameStream, stream], ?_⟩
  rw [ids]
  cases built : (seed.build session.config.signature session.ids).1 with
  | done repository =>
      rw [load_done built]
      exact Seed.build_drawn seed unnamed _ session.ids stream repository built
  -- A seed that is turned down may have drawn ids, which are lost.
  | refused _ | interrupted _ =>
      rw [load_undone (by rw [built]; rfl)]
      exact drawn_widen drawn (Nat.le_refl _) later

theorem apply_numbered {session : Session} (event : Event) (unnamed : event.Unnamed)
    (numbered : session.toState.Numbered) : (session.apply event).toState.Numbered := by
  cases event with
  | typed line =>
      rw [apply, execute_evaluate]
      exact evaluate_numbered _ numbered
  | evaluated line => exact evaluate_numbered line numbered
  | loaded seed => exact load_numbered seed unnamed numbered

theorem after_numbered {session : Session} (course : List Event) (unnamed : ∀ event ∈ course, event.Unnamed)
    (numbered : session.toState.Numbered) : (session.after course).toState.Numbered := by
  induction course generalizing session with
  | nil => exact numbered
  | cons event rest ih =>
      have first := apply_numbered event (unnamed event List.mem_cons_self) numbered
      exact ih (fun later present => unnamed later (List.mem_cons_of_mem event present)) first

theorem start_numbered (settings : Settings) : (start settings .sequential).toState.Numbered :=
  ⟨rfl, drawn_nil 0 0⟩

end Session

end GitPractice
