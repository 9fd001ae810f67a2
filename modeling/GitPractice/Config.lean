import GitPractice.Author
import GitPractice.Text.Order

set_option autoImplicit false

namespace GitPractice

def Ascending (entries : List (String × String)) : Prop :=
  entries.Pairwise fun earlier later => Text.precedes earlier.1 later.1 = true

structure Config where
  entries : List (String × String)
  ascending : Ascending entries

namespace Config

def put (key value : String) : List (String × String) → List (String × String)
  | [] => [(key, value)]
  | (other, old) :: rest =>
      if key = other then (key, value) :: rest
      else if Text.precedes key other then (key, value) :: (other, old) :: rest
      else (other, old) :: put key value rest

theorem mem_put {key value : String} {entries : List (String × String)} {entry : String × String}
    (present : entry ∈ put key value entries) : entry = (key, value) ∨ entry ∈ entries := by
  induction entries with
  | nil => exact .inl (by simpa [put] using present)
  | cons head rest ih =>
    obtain ⟨other, old⟩ := head
    simp only [put] at present
    split at present
    · rcases List.mem_cons.mp present with new | kept
      · exact .inl new
      · exact .inr (List.mem_cons_of_mem _ kept)
    · split at present
      · exact List.mem_cons.mp present
      · rcases List.mem_cons.mp present with first | deeper
        · exact .inr (by simp [first])
        · exact (ih deeper).imp id (List.mem_cons_of_mem _)

theorem ascending_put {key value : String} {entries : List (String × String)}
    (ascending : Ascending entries) : Ascending (put key value entries) := by
  induction entries with
  | nil => exact List.pairwise_singleton _ _
  | cons head rest ih =>
    obtain ⟨other, old⟩ := head
    obtain ⟨below, restAscending⟩ := List.pairwise_cons.mp ascending
    simp only [put]
    split
    · rename_i same
      subst same
      exact List.pairwise_cons.mpr ⟨below, restAscending⟩
    · rename_i different
      split
      · rename_i less
        refine List.pairwise_cons.mpr ⟨?_, ascending⟩
        intro entry present
        rcases List.mem_cons.mp present with rfl | deeper
        · exact less
        · exact Text.precedes_trans less (below entry deeper)
      · rename_i notLess
        refine List.pairwise_cons.mpr ⟨?_, ih restAscending⟩
        intro entry present
        rcases mem_put present with rfl | deeper
        · exact (Text.precedes_total different).resolve_left notLess
        · exact below entry deeper

theorem lookup_put_same (key value : String) (entries : List (String × String)) :
    (put key value entries).lookup key = some value := by
  induction entries with
  | nil => simp [put]
  | cons head rest ih =>
    obtain ⟨other, old⟩ := head
    simp only [put]
    split
    · simp
    · rename_i different
      split
      · simp
      · have apart : (key == other) = false := by simpa using different
        simp [List.lookup_cons, apart, ih]

theorem lookup_put_other {key query : String} (value : String) (entries : List (String × String))
    (different : query ≠ key) : (put key value entries).lookup query = entries.lookup query := by
  have apart : (query == key) = false := by simpa using different
  induction entries with
  | nil => simp [put, List.lookup_cons, apart]
  | cons head rest ih =>
    obtain ⟨other, old⟩ := head
    simp only [put]
    split
    · rename_i same
      subst same
      simp [List.lookup_cons, apart]
    · split
      · simp [List.lookup_cons, apart]
      · simp only [List.lookup_cons]
        split <;> simp_all

def empty : Config := ⟨[], List.Pairwise.nil⟩

def set (config : Config) (key value : String) : Config :=
  ⟨put key value config.entries, ascending_put config.ascending⟩

def overlay (config : Config) (entries : List (String × String)) : Config :=
  entries.foldl (fun config entry => config.set entry.1 entry.2) config

def value? (config : Config) (key : String) : Option String := config.entries.lookup key

/-- The value under a key, if it is not empty. -/
def get? (config : Config) (key : String) : Option String :=
  (config.value? key).filter (· != "")

theorem value_set_same (config : Config) (key value : String) :
    (config.set key value).value? key = some value :=
  lookup_put_same key value config.entries

theorem value_set_other (config : Config) {key query : String} (value : String)
    (different : query ≠ key) : (config.set key value).value? query = config.value? query :=
  lookup_put_other value config.entries different

theorem mem_entries_iff (config : Config) (key value : String) :
    (key, value) ∈ config.entries ↔ config.value? key = some value := by
  rw [value?, List.lookup_eq_some_iff]
  constructor
  · intro present
    obtain ⟨before, after, whole⟩ := List.append_of_mem present
    refine ⟨before, after, whole, ?_⟩
    have ascending := config.ascending
    rw [whole, Ascending, List.pairwise_append] at ascending
    intro entry held
    have below := ascending.2.2 entry held (key, value) List.mem_cons_self
    apply bne_iff_ne.mpr
    intro same
    rw [← same, Text.precedes_irrefl] at below
    exact Bool.false_ne_true below
  · rintro ⟨before, after, whole, _⟩
    rw [whole]
    exact List.mem_append_right before List.mem_cons_self

/-- What is read under a key: its value, or another text where there is none or an empty one. -/
inductive Tells (config : Config) (key other : String) : String → Prop where
  | own {value : String} (listed : (key, value) ∈ config.entries) (filled : value ≠ "") :
      Tells config key other value
  | other (blank : ∀ value, (key, value) ∈ config.entries → value = "") : Tells config key other other

theorem tells_iff (config : Config) (key other text : String) :
    config.Tells key other text ↔ text = (config.get? key).getD other := by
  constructor
  · rintro (⟨listed, filled⟩ | ⟨blank⟩)
    · have found := (config.mem_entries_iff key text).mp listed
      rw [get?, found, Option.filter_some, if_pos (bne_iff_ne.mpr filled), Option.getD_some]
    · cases found : config.get? key with
      | none => rfl
      | some value =>
          obtain ⟨held, filled⟩ := Option.filter_eq_some_iff.mp found
          exact absurd (blank value ((config.mem_entries_iff key value).mpr held)) (bne_iff_ne.mp filled)
  · rintro rfl
    cases found : config.get? key with
    | none =>
        refine .other fun value listed => ?_
        rw [get?, (config.mem_entries_iff key value).mp listed] at found
        simpa using found
    | some value =>
        obtain ⟨held, filled⟩ := Option.filter_eq_some_iff.mp found
        exact .own ((config.mem_entries_iff key value).mpr held) (bne_iff_ne.mp filled)

def nameKey : String := "user.name"
def emailKey : String := "user.email"

def fallback : Signature := ⟨"Git Learner", "learner@gitlearner.com"⟩

def defaults : Config := (empty.set nameKey fallback.name).set emailKey fallback.email

def signature (config : Config) : Signature where
  name := (config.get? nameKey).getD fallback.name
  email := (config.get? emailKey).getD fallback.email

/-- The name and the address that a configuration signs with. -/
structure Signs (config : Config) (signature : Signature) : Prop where
  name : config.Tells "user.name" "Git Learner" signature.name
  email : config.Tells "user.email" "learner@gitlearner.com" signature.email

theorem signs_iff (config : Config) (signature : Signature) :
    config.Signs signature ↔ signature = config.signature := by
  constructor
  · rintro ⟨name, email⟩
    have sameName : signature.name = config.signature.name := (config.tells_iff _ _ _).mp name
    have sameEmail : signature.email = config.signature.email := (config.tells_iff _ _ _).mp email
    cases signature
    simp_all
  · rintro rfl
    exact ⟨(config.tells_iff _ _ _).mpr rfl, (config.tells_iff _ _ _).mpr rfl⟩

theorem ext_entries {left right : Config} (same : left.entries = right.entries) : left = right := by
  cases left
  cases right
  simp_all

end Config

end GitPractice
