import GitPractice.Proofs.Acceptance
import GitPractice.Proofs.Lifecycle
import GitPractice.Proofs.Records

set_option autoImplicit false

namespace GitPractice

open Json

namespace Server

def valuesUnder (name : String) (members : List (Option String × Json)) : List Json :=
  members.filterMap fun member => if member.1 = some name then some member.2 else none

/-- A body that is one object to its end, all names in it texts, with at most one member for a seed. -/
def HasSeed (body : String) (value : Option Json) : Prop :=
  ∃ members, Json.read body = .object members ∧ (Json.object members).isSound = true ∧
    (∀ member ∈ members, member.1.isSome = true) ∧ valuesUnder "seed" members = value.toList

def Seedless (body : String) : Prop :=
  body.toList.all isBodyBlank = true ∨ HasSeed body none ∨ HasSeed body (some .null)

def Carries (body : String) (own : Seed) : Prop :=
  ∃ json, (HasSeed body (some json) ∨ Json.read body = .array [json]) ∧ Seed.ofJson json = .ok own

def givenSeed : Option Json → Except Fault (Option Seed)
  | none => .ok none
  | some json => Decoder.nullable Seed.ofJson json

theorem values_under_cons (name : String) (member : Option String × Json) (rest : List (Option String × Json)) :
    valuesUnder name (member :: rest) =
      if member.1 = some name then member.2 :: valuesUnder name rest else valuesUnder name rest := by
  rw [valuesUnder, List.filterMap_cons]
  split <;> simp_all [valuesUnder]

theorem member_values (name : String) (members : List (Option String × Json)) :
    member? members name = (valuesUnder name members).head? := by
  induction members with
  | nil => rfl
  | cons member rest ih =>
      obtain ⟨other, json⟩ := member
      rw [values_under_cons, member?, List.lookup_cons]
      by_cases same : other = some name
      · simp [same]
      · have apart : (some name == other) = false := beq_eq_false_iff_ne.mpr (Ne.symm same)
        rw [if_neg same, apart]
        exact ih

theorem seed_field_check (json : Json) :
    seedField.check json = (givenSeed (some json)).map fun _ => () := rfl

/-- Members other than the seed are passed over, and the seed is looked at once: behind it the same holds of
members without a seed, so the value moves with the members seen. -/
theorem check_seed_member {members : List (Option String × Json)} {value : Option Json} {seen : List String}
    (sound : membersSound members = true) (named : ∀ member ∈ members, member.1.isSome = true)
    (single : valuesUnder "seed" members = value.toList) (unseen : value.isSome = true → "seed" ∉ seen) :
    checkMembers [seedField] seen members = (givenSeed value).map fun _ => () := by
  induction members generalizing value seen with
  | nil =>
      cases value with
      | none => rfl
      | some json => cases single
  | cons member rest ih =>
      obtain ⟨name?, json⟩ := member
      obtain ⟨own, others⟩ := List.forall_mem_cons.mp named
      obtain ⟨name, rfl⟩ := Option.isSome_iff_exists.mp own
      rw [membersSound, Bool.and_eq_true] at sound
      rw [values_under_cons] at single
      by_cases same : name = "seed"
      · subst same
        rw [if_pos rfl] at single
        cases value with
        | none => cases single
        | some found =>
            obtain ⟨rfl, alone⟩ := List.cons.inj single
            have left : valuesUnder "seed" rest = Option.none.toList := alone
            have unread : seen.contains "seed" = false := by simpa using unseen rfl
            have more : checkMembers [seedField] ("seed" :: seen) rest = .ok () :=
              ih sound.2 others left nofun
            rw [checkMembers, show [seedField].find? (·.name == "seed") = some seedField from rfl]
            simp only [unread, Bool.false_eq_true, if_false, more, seed_field_check]
            cases givenSeed (some json) <;> rfl
      · have other : [seedField].find? (·.name == name) = none := by
          simp [seedField, Field.of, Ne.symm same]
        rw [if_neg (by simpa using same)] at single
        rw [checkMembers, other]
        simp only [sound.1, if_true]
        exact ih sound.2 others single unseen

theorem blank_broken {body : String} (blank : body.toList.all isBodyBlank = true) :
    Json.read body = .broken := by
  have start : (readStart body).1 = .broken := by
    rw [readStart, readValue]
    cases left : skipSpace body.toList with
    | nil => rfl
    | cons c rest =>
        have present : c ∈ body.toList :=
          (List.dropWhile_sublist isSpace).subset (by rw [← skipSpace, left]; exact List.mem_cons_self)
        have unspaced := List.head?_dropWhile_not isSpace body.toList
        rw [← skipSpace, left, List.head?_cons] at unspaced
        have control : c = '\x0c' := by
          have listed := List.all_eq_true.mp blank c present
          simp only [isBodyBlank, Bool.or_eq_true, beq_iff_eq] at listed
          rcases listed with (((rfl | rfl) | rfl) | rfl) | rfl
          · cases unspaced
          · cases unspaced
          · cases unspaced
          · rfl
          · cases unspaced
        subst control
        rfl
  rw [Json.read]
  simp only [start, ite_self]

theorem seed_of_body_member {body : String} {value : Option Json} (has : HasSeed body value) :
    seedOfBody body = givenSeed value := by
  obtain ⟨members, read, sound, named, single⟩ := has
  have filled : ¬ body.toList.all isBodyBlank = true := fun blank => by simp [blank_broken blank] at read
  have checked := check_seed_member sound named single fun _ => List.not_mem_nil
  have found : member? members "seed" = value := by
    rw [member_values, single]
    cases value <;> rfl
  have taken : seedOfJson (.object members) =
      (checkMembers [seedField] [] members).bind fun _ => optionalField members "seed" Seed.ofJson := by
    rw [seedOfJson, Json.members]
    · cases checkMembers [seedField] [] members <;> rfl
    · simp
  rw [seedOfBody, if_neg filled, read, taken, checked, optionalField, defaulted, found]
  cases value with
  | none => rfl
  | some json =>
      cases given : Decoder.nullable Seed.ofJson json with
      | error fault => simp [givenSeed, given, Except.map, Except.bind]
      | ok seed => simp [givenSeed, given, Except.map, Except.bind]

theorem seed_of_seedless {body : String} (seedless : Seedless body) : seedOfBody body = .ok none := by
  rcases seedless with blank | absent | null
  · rw [seedOfBody, if_pos blank]
  · exact seed_of_body_member absent
  · exact seed_of_body_member null

theorem nullable_seed {json : Json} {own : Seed} (read : Seed.ofJson json = .ok own) :
    Decoder.nullable Seed.ofJson json = .ok (some own) := by
  rw [Decoder.nullable]
  · rw [read]
    rfl
  · rintro rfl
    cases read

theorem seed_of_carried {body : String} {own : Seed} (carries : Carries body own) :
    seedOfBody body = .ok (some own) := by
  obtain ⟨json, has | alone, read⟩ := carries
  · exact (seed_of_body_member has).trans (nullable_seed read)
  · have filled : ¬ body.toList.all isBodyBlank = true := fun blank => by simp [blank_broken blank] at alone
    have checked : checkMembers [seedField] [] [(some "seed", json)] = .ok () := by
      rw [checkMembers, show [seedField].find? (·.name == "seed") = some seedField from rfl]
      simp only [seed_field_check, givenSeed, nullable_seed read]
      rfl
    rw [seedOfBody, if_neg filled, alone, seedOfJson, Json.members]
    · have found := nullable_seed read
      change ((checkMembers [seedField] [] [(some "seed", json)]).map fun _ => _).bind _ = _
      rw [checked]
      exact found
    · simp

theorem carries_printed (own : Seed) : Carries (Json.record [("seed", own.toJson)]).compact own := by
  have plain : Plain (Json.record [("seed", own.toJson)]) :=
    plain_members (List.forall_mem_singleton.mpr own.plain)
  refine ⟨own.toJson, .inl ⟨_, read_compact plain, plain_sound _ plain, ?_, ?_⟩, own.of_json_to_json⟩
  · exact List.forall_mem_singleton.mpr rfl
  · rfl

end Server

namespace Session

variable (session : Session) (seed : Seed)

theorem load_outcome :
    (session.load seed).1 = (seed.build session.config.signature session.ids).1.map fun _ => () := by
  rw [load]
  split <;> rename_i same <;> rw [same] <;> rfl

theorem load_repository {repository : Repository}
    (built : (seed.build session.config.signature session.ids).1 = .done repository) :
    ∃ after, session.load seed = (.done (), after) ∧ after.repository = repository := by
  rw [load]
  split <;> rename_i same <;> rw [same] at built <;> cases built
  exact ⟨_, rfl, rfl⟩

end Session

namespace Server

variable {settings : Settings} {seed : Seed} {ids : SessionId → IdSource} {server : Server}

theorem start_valid (steady : ∀ id, (ids id).Steady) (started : start settings (some seed) ids = .done server) :
    seed.Valid := by
  rw [start, open_session_standalone] at started
  obtain ⟨_, loaded, _⟩ := (Outcome.map_done_iff _ _ _).mp started
  have outcome := Session.load_outcome (.start settings (ids ⟨0⟩)) seed
  obtain ⟨repository, built, _⟩ := (Outcome.map_done_iff _ _ _).mp (outcome.symm.trans loaded)
  exact (Seed.build_accepts settings.config.signature seed (steady ⟨0⟩)).mp ⟨repository, built⟩

theorem open_answer {after : Server} {fresh : SessionId} {request : Request} {given : Option Seed} {chosen : Seed}
    {repository : Repository} (opening : after.openSession = server.openSession) (creates : request.Creates)
    (read : seedOf request = .ok given) (decided : given.or server.defaultSeed = some chosen)
    (built : (chosen.build server.settings.config.signature (server.ids fresh)).1 = .done repository) :
    (after.handle fresh request).1 =
      .ok (.record [("id", .text fresh.render), ("state", repository.toJson)]) := by
  have aimed : request.aim = .opens given := by
    rw [Request.own_aim creates.2 creates.1, Route.aim, read]
  obtain ⟨session, loaded, same⟩ :=
    Session.load_repository (.start server.settings (server.ids fresh)) chosen built
  have opened : after.openSession fresh given = (.done (), session) := by
    rw [opening, open_session_standalone, decided]
    exact loaded
  rw [handle_opened aimed opened, createdJson, same]

theorem seed_of_small {request : Request} {given : Option Seed} (small : request.body.size ≤ Request.limit)
    (read : seedOfBody (textOfBytes request.body) = .ok given) : seedOf request = .ok given := by
  rw [seedOf, Request.text_some_iff.mpr ⟨small, rfl⟩]
  simp only [read]

theorem default_seed_stays_good (steady : ∀ id, (ids id).Steady)
    (started : start settings (some seed) ids = .done server) (arrivals : List Arrival) (fresh : SessionId)
    (request : Request) (chosen : Seed) (creates : request.Creates) (small : request.body.size ≤ Request.limit)
    (decided : Seedless (textOfBytes request.body) ∧ chosen = seed ∨
      Carries (textOfBytes request.body) chosen ∧ chosen.Valid) :
    ∃ repository,
      (chosen.build settings.config.signature (ids fresh)).1 = .done repository ∧
      (ids fresh = .sequential → repository = chosen.numbered settings.config.signature) ∧
      ((server.answerAll arrivals).2.handle fresh request).1 =
        .ok (.record [("id", .text fresh.render), ("state", repository.toJson)]) := by
  have same := start_done started
  have valid : chosen.Valid := by
    rcases decided with ⟨_, rfl⟩ | ⟨_, own⟩
    · exact start_valid steady started
    · exact own
  have given : ∃ given, seedOf request = .ok given ∧ given.or server.defaultSeed = some chosen := by
    rw [same]
    rcases decided with ⟨seedless, rfl⟩ | ⟨carries, _⟩
    · exact ⟨none, seed_of_small small (seed_of_seedless seedless), rfl⟩
    · exact ⟨some chosen, seed_of_small small (seed_of_carried carries), rfl⟩
  obtain ⟨given, read, opens⟩ := given
  obtain ⟨repository, built⟩ :=
    (Seed.build_accepts settings.config.signature chosen (steady fresh)).mpr valid
  refine ⟨repository, built, ?_, ?_⟩
  · intro counted
    rw [counted, Seed.build_numbered valid] at built
    cases built
    rfl
  · refine open_answer (answer_all_open_session server arrivals) creates read opens ?_
    rw [same]
    exact built

def firstSeed : Seed := { branches := ["main"], commits := [{ branch := "main", message := "First" }] }

def nullSeed : Json := .record [("seed", .null), ("note", .array [.int 1])]

def asking (body : Json) : Request := ⟨"POST", "/sessions", none, body.compact⟩

def ownSeed : Seed where
  branches := ["dev"]
  commits := [{ branch := "dev", message := "a" }, { branch := "dev", message := "b", id := some "x" }]

theorem default_seed_stays_good_in_turns :
    ((seeded.answerAll turns).2.handle ⟨3⟩ (asking nullSeed)).1 =
        .ok (.record [("id", .text (SessionId.mk 3).render), ("state", Repository.toJson
          ⟨"main", ["main"], [⟨"0000001", "First", Config.fallback, Clock.start, "main", none, none, none, none⟩],
            []⟩)]) ∧
      ∃ repository, ((seeded.answerAll turns).2.handle ⟨3⟩ (asking (.record [("seed", ownSeed.toJson)]))).1 =
          .ok (.record [("id", .text (SessionId.mk 3).render), ("state", Repository.toJson repository)]) ∧
        repository.commits.map Commit.id = ["0000001", "x"] := by
  have started : start {} (some firstSeed) (fun _ => .sequential) = .done seeded := rfl
  have steady : ∀ id : SessionId, ((fun _ => IdSource.sequential) id).Steady := fun _ place => ⟨_, rfl⟩
  have routed : Route.ofSegments (Path.segments "/sessions") = some .sessions := by decide
  have creates (body : Json) : (asking body).Creates := ⟨rfl, routed⟩
  have small : Int.natAbs 1 ≤ wordBound := by decide
  have plain : Plain nullSeed := ⟨rfl, trivial, rfl, ⟨small, trivial⟩, trivial⟩
  have null : Seedless (textOfBytes (asking nullSeed).body) := by
    rw [asking, text_of_utf8]
    exact .inr (.inr ⟨_, read_compact plain, plain_sound _ plain, by decide, rfl⟩)
  have own : Carries (textOfBytes (asking (.record [("seed", ownSeed.toJson)])).body) ownSeed := by
    rw [asking, text_of_utf8]
    exact carries_printed ownSeed
  have valid : ownSeed.Valid := ⟨by decide, ⟨"dev", by decide⟩, by decide⟩
  constructor
  · obtain ⟨repository, _, counted, answered⟩ :=
      default_seed_stays_good steady started turns ⟨3⟩ (asking nullSeed) _ (creates _) (by decide)
        (.inl ⟨null, rfl⟩)
    rw [answered, counted rfl]
    rfl
  · obtain ⟨repository, _, counted, answered⟩ :=
      default_seed_stays_good steady started turns ⟨3⟩ (asking _) ownSeed (creates _) (by decide +kernel)
        (.inr ⟨own, valid⟩)
    refine ⟨repository, answered, ?_⟩
    rw [counted rfl]
    decide

def unreadable : Request := ⟨"POST", "/sessions", none, "\x7b\"\\ud800\":1\x7d"⟩

def isSeedlessObject : Json → Bool
  | .object members => membersSound members && (valuesUnder "seed" members).isEmpty
  | _ => false

theorem seedless_object {json : Json} (object : isSeedlessObject json = true) :
    ∃ members, json = .object members ∧ (Json.object members).isSound = true ∧
      valuesUnder "seed" members = [] := by
  cases json with
  | object members =>
      obtain ⟨sound, none⟩ := Bool.and_eq_true_iff.mp object
      exact ⟨members, rfl, sound, List.isEmpty_iff.mp none⟩
  | null | bool _ | int _ | real | huge | text _ | surrogate | array _ | broken => cases object

/-- Not every object will do. A name with half of a surrogate pair is no text, and a body that has one is
refused, whatever it says about seeds. -/
theorem unreadable_name_refused :
    ¬ ∀ (settings : Settings) (seed : Seed) (server : Server),
      start settings (some seed) (fun _ => .sequential) = .done server →
      ∀ (fresh : SessionId) (request : Request) (members : List (Option String × Json)), request.Creates →
        request.body.size ≤ Request.limit → Json.read (textOfBytes request.body) = .object members →
        (Json.object members).isSound = true → valuesUnder "seed" members = [] → (server.handle fresh request).1.status = 200 := by
  intro always
  have refused : (seeded.handle ⟨1⟩ unreadable).1.status ≠ 200 := by decide +kernel
  have object : isSeedlessObject (Json.read (textOfBytes unreadable.body)) = true := by decide +kernel
  obtain ⟨members, read, sound, seedless⟩ := seedless_object object
  exact refused (always {} firstSeed seeded rfl ⟨1⟩ unreadable members (by decide) (by decide) read sound seedless)

end Server

end GitPractice
