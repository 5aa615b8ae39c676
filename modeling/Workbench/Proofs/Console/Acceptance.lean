import Workbench.Console.Event

/-!
# Which messages reach the console

A message is read field by field, and which fields count is a matter of the message alone:
`Denotes` says which values stand for a level, `FaultyLevel` what is wrong with any other value,
`Carries` which event a message is, and `Reports` which of several defects it is rejected for.

`accept_iff` says that accepting a message agrees with them for every sender and every value, and
that what the page posts is taken as it was meant.
-/

namespace Workbench.Console

/-- The value stands for the level: its name, alone or as the only key of an object, with null. -/
inductive Denotes : Json → Level → Prop
  | name (l : Level) : Denotes (.text l.name) l
  | key (l : Level) : Denotes (.object [(l.name, .null)]) l

/-- What is wrong with a value that stands for no level. -/
inductive FaultyLevel : Json → Defect → Prop
  | name {name : String} (hn : ∀ l : Level, l.name ≠ name) :
    FaultyLevel (.text name) (.unknownLevel name)
  | key {name : String} {v : Json} (hn : ∀ l : Level, l.name ≠ name) :
    FaultyLevel (.object [(name, v)]) (.unknownLevel name)
  | value (l : Level) {v : Json} (hv : v ≠ .null) :
    FaultyLevel (.object [(l.name, v)]) (.levelValue v)
  | fields {fields : List (String × Json)} (hf : fields.length ≠ 1) :
    FaultyLevel (.object fields) .levelFields
  | kind {v : Json} (ht : ∀ s, v ≠ .text s) (ho : ∀ fields, v ≠ .object fields) :
    FaultyLevel v (.levelOfKind v)

/-- The arguments in a message, which has none when it does not mention them. -/
def HasArgs (data : Json) (args : List Json) : Prop :=
  data.field? "message" = some (.list args) ∨ data.field? "message" = none ∧ args = []

/-- The event that a message with the tag is. -/
structure Carries (data : Json) (e : Event) : Prop where
  level : ∃ v, data.field? "level" = some v ∧ Denotes v e.level
  args : HasArgs data e.args

/-- What a message with the tag is rejected for: a bad level, whatever else is wrong; bad arguments
when the level is good or missing; a missing level when nothing else is wrong. -/
inductive Reports (data : Json) : Defect → Prop
  | level {v : Json} {d : Defect} (hv : data.field? "level" = some v) (hd : FaultyLevel v d) :
    Reports data d
  | args {v : Json} (hl : ∀ w, data.field? "level" = some w → ∃ l, Denotes w l)
    (hv : data.field? "message" = some v) (hn : ∀ args, v ≠ .list args) :
    Reports data (.messageOfKind v)
  | missing {args : List Json} (hl : data.field? "level" = none) (ha : HasArgs data args) :
    Reports data .missingLevel

/-- The answer to a message. -/
inductive Answers (data : Json) : Bool → Except Rejection Event → Prop
  | foreign : Answers data false (.error .foreign)
  | untagged (ht : data.field? "type" ≠ some (.text Settings.consoleTag)) :
    Answers data true (.error .untagged)
  | accepted {e : Event} (ht : data.field? "type" = some (.text Settings.consoleTag))
    (he : Carries data e) : Answers data true (.ok e)
  | malformed {d : Defect} (ht : data.field? "type" = some (.text Settings.consoleTag))
    (hd : Reports data d) : Answers data true (.error (.malformed d))

/-- The message that the page posts for a console call. -/
def envelope (level : Level) (args : List Json) : Json :=
  .ofFields [("type", .text Settings.consoleTag), ("level", .text level.name),
    ("message", .list args)]

/-! ## Levels -/

theorem Level.ofName?_eq_some_iff {name : String} {l : Level} :
    ofName? name = some l ↔ l.name = name := by
  constructor
  · intro h
    unfold ofName? at h
    split at h
    · obtain rfl := Option.some.inj h
      rfl
    · obtain rfl := Option.some.inj h
      rfl
    · obtain rfl := Option.some.inj h
      rfl
    · cases h
  · rintro rfl
    exact ofName?_name l

theorem Level.ofName?_eq_none_iff {name : String} :
    ofName? name = none ↔ ∀ l : Level, l.name ≠ name := by
  rw [Option.eq_none_iff_forall_ne_some]
  exact forall_congr' fun l => not_congr ofName?_eq_some_iff

theorem Denotes.readLevel_eq {v : Json} {l : Level} (h : Denotes v l) : readLevel v = .ok l := by
  cases h with
  | name => simp only [readLevel, Level.ofName?_name]
  | key => simp only [readLevel, Level.ofName?_name]

theorem FaultyLevel.readLevel_eq {v : Json} {d : Defect} (h : FaultyLevel v d) :
    readLevel v = .error d := by
  cases h with
  | name hn => simp only [readLevel, Level.ofName?_eq_none_iff.mpr hn]
  | key hn => simp only [readLevel, Level.ofName?_eq_none_iff.mpr hn]
  | value l hv => simp only [readLevel, Level.ofName?_name]
  | @fields fields hf =>
    match fields with
    | [] => rfl
    | [_] => exact absurd rfl hf
    | _ :: _ :: _ => rfl
  | kind ht ho =>
    cases v with
    | text s => exact absurd rfl (ht s)
    | object fields => exact absurd rfl (ho fields)
    | _ => rfl

theorem denotes_or_faultyLevel (v : Json) : (∃ l, Denotes v l) ∨ ∃ d, FaultyLevel v d := by
  cases v with
  | text name =>
    cases hn : Level.ofName? name with
    | some l => exact .inl ⟨l, Level.ofName?_eq_some_iff.mp hn ▸ .name l⟩
    | none => exact .inr ⟨_, .name (Level.ofName?_eq_none_iff.mp hn)⟩
  | object fields =>
    match fields with
    | [] => exact .inr ⟨_, .fields (by simp)⟩
    | _ :: _ :: _ => exact .inr ⟨_, .fields (by simp)⟩
    | [(name, v)] =>
      cases hn : Level.ofName? name with
      | none => exact .inr ⟨_, .key (Level.ofName?_eq_none_iff.mp hn)⟩
      | some l =>
        obtain rfl := Level.ofName?_eq_some_iff.mp hn
        by_cases hv : v = .null
        · exact .inl ⟨l, hv ▸ .key l⟩
        · exact .inr ⟨_, .value l hv⟩
  | _ => exact .inr ⟨_, .kind (by simp) (by simp)⟩

/-! ## Messages with the tag -/

variable {data : Json} {e : Event} {d : Defect} {args : List Json}

theorem readArgs_eq_error {v : Json} (hn : ∀ args, v ≠ .list args) :
    readArgs v = .error (.messageOfKind v) := by
  cases v with
  | list args => exact absurd rfl (hn args)
  | _ => rfl

theorem Carries.readEvent_eq (h : Carries data e) : readEvent data = .ok e := by
  obtain ⟨⟨v, hv, hl⟩, hm | ⟨hm, ha⟩⟩ := h
  · simp only [readEvent, hv, hm, hl.readLevel_eq]
    rfl
  · obtain ⟨level, args⟩ := e
    obtain rfl : args = [] := ha
    simp only [readEvent, hv, hm, hl.readLevel_eq]
    rfl

theorem Reports.readEvent_eq (h : Reports data d) : readEvent data = .error d := by
  cases h with
  | level hv hd =>
    simp only [readEvent, hv, hd.readLevel_eq]
    rfl
  | args hl hv hn =>
    cases hw : data.field? "level" with
    | none =>
      simp only [readEvent, hw, hv, readArgs_eq_error hn]
      rfl
    | some w =>
      obtain ⟨l, hl⟩ := hl w hw
      simp only [readEvent, hw, hv, hl.readLevel_eq, readArgs_eq_error hn]
      rfl
  | missing hl ha =>
    rcases ha with hm | ⟨hm, -⟩
    · simp only [readEvent, hl, hm]
      rfl
    · simp only [readEvent, hl, hm]
      rfl

theorem hasArgs_or_not (data : Json) :
    (∃ args, HasArgs data args) ∨ ∃ v, data.field? "message" = some v ∧ ∀ args, v ≠ .list args := by
  cases hm : data.field? "message" with
  | none => exact .inl ⟨[], .inr ⟨hm, rfl⟩⟩
  | some v =>
    by_cases hv : ∃ args, v = .list args
    · obtain ⟨args, rfl⟩ := hv
      exact .inl ⟨args, .inl hm⟩
    · exact .inr ⟨v, rfl, fun args h => hv ⟨args, h⟩⟩

theorem carries_or_reports (data : Json) : (∃ e, Carries data e) ∨ ∃ d, Reports data d := by
  cases hw : data.field? "level" with
  | none =>
    refine .inr ?_
    rcases hasArgs_or_not data with ⟨args, ha⟩ | ⟨v, hv, hn⟩
    · exact ⟨_, .missing hw ha⟩
    · exact ⟨_, .args (fun w h => by cases hw.symm.trans h) hv hn⟩
  | some w =>
    rcases denotes_or_faultyLevel w with ⟨l, hl⟩ | ⟨d, hd⟩
    · rcases hasArgs_or_not data with ⟨args, ha⟩ | ⟨v, hv, hn⟩
      · exact .inl ⟨⟨l, args⟩, ⟨w, hw, hl⟩, ha⟩
      · refine .inr ⟨_, .args (fun w' h => ⟨l, ?_⟩) hv hn⟩
        obtain rfl := Option.some.inj (hw.symm.trans h)
        exact hl
    · exact .inr ⟨d, .level hw hd⟩

/-! ## All messages -/

theorem isTagged_iff : isTagged data = true ↔
    data.field? "type" = some (.text Settings.consoleTag) := by
  unfold isTagged
  split
  · rename_i s hs
    rw [hs, beq_iff_eq]
    simp
  · rename_i hs
    exact iff_of_false Bool.false_ne_true fun h => hs _ h

theorem Answers.accept_eq {fromPage : Bool} {r : Except Rejection Event}
    (h : Answers data fromPage r) : accept fromPage data = r := by
  cases h with
  | foreign => rfl
  | untagged ht =>
    have hx : isTagged data = false := by rwa [← Bool.not_eq_true, isTagged_iff]
    simp [accept, hx]
  | accepted ht he => simp [accept, isTagged_iff.mpr ht, he.readEvent_eq]
  | malformed ht hd => simp [accept, isTagged_iff.mpr ht, hd.readEvent_eq]

theorem exists_answers (fromPage : Bool) (data : Json) : ∃ r, Answers data fromPage r := by
  cases fromPage with
  | false => exact ⟨_, .foreign⟩
  | true =>
    by_cases ht : data.field? "type" = some (.text Settings.consoleTag)
    · rcases carries_or_reports data with ⟨e, he⟩ | ⟨d, hd⟩
      · exact ⟨_, .accepted ht he⟩
      · exact ⟨_, .malformed ht hd⟩
    · exact ⟨_, .untagged ht⟩

theorem accept_eq_iff {fromPage : Bool} {r : Except Rejection Event} :
    accept fromPage data = r ↔ Answers data fromPage r := by
  refine ⟨fun h => ?_, Answers.accept_eq⟩
  obtain ⟨r', hr⟩ := exists_answers fromPage data
  obtain rfl : r' = r := hr.accept_eq.symm.trans h
  exact hr

theorem envelope_eq (level : Level) (args : List Json) : envelope level args =
    .object [("level", .text level.name), ("message", .list args),
      ("type", .text Settings.consoleTag)] := by
  have hlevel : "level" ≠ "type" ∧ "level" < "type" := by decide
  have hmessage : "message" ≠ "level" ∧ ¬ "message" < "level" := by decide
  have htype : "message" ≠ "type" ∧ "message" < "type" := by decide
  simp only [envelope, Json.ofFields, List.foldl_cons, List.foldl_nil, Json.insertField,
    if_neg hlevel.1, if_pos hlevel.2, if_neg hmessage.1, if_neg hmessage.2, if_neg htype.1,
    if_pos htype.2]

theorem carries_envelope (level : Level) (args : List Json) :
    Carries (envelope level args) ⟨level, args⟩ := by
  rw [envelope_eq]
  exact ⟨⟨_, rfl, .name level⟩, .inl rfl⟩

/-- A message from elsewhere is foreign; one without the tag is no console message; of the others
those that carry an event are accepted as this event, and those that do not are rejected for the
defect that comes first. A message that the page posts is accepted with its level and arguments. -/
theorem accept_iff (fromPage : Bool) (data : Json) :
    (accept fromPage data = .error .foreign ↔ fromPage = false) ∧
    (accept fromPage data = .error .untagged ↔
      fromPage = true ∧ data.field? "type" ≠ some (.text Settings.consoleTag)) ∧
    (∀ e, accept fromPage data = .ok e ↔
      fromPage = true ∧ data.field? "type" = some (.text Settings.consoleTag) ∧ Carries data e) ∧
    (∀ d, accept fromPage data = .error (.malformed d) ↔
      fromPage = true ∧ data.field? "type" = some (.text Settings.consoleTag) ∧ Reports data d) ∧
    (∀ level args, accept true (envelope level args) = .ok ⟨level, args⟩) := by
  simp only [accept_eq_iff]
  refine ⟨⟨?_, ?_⟩, ⟨?_, ?_⟩, fun e => ⟨?_, ?_⟩, fun d => ⟨?_, ?_⟩, fun level args => ?_⟩
  · rintro ⟨⟩
    rfl
  · rintro rfl
    exact .foreign
  · rintro (_ | ht)
    exact ⟨rfl, ht⟩
  · rintro ⟨rfl, ht⟩
    exact .untagged ht
  · rintro (_ | _ | ⟨ht, he⟩)
    exact ⟨rfl, ht, he⟩
  · rintro ⟨rfl, ht, he⟩
    exact .accepted ht he
  · rintro (_ | _ | _ | ⟨ht, hd⟩)
    exact ⟨rfl, ht, hd⟩
  · rintro ⟨rfl, ht, hd⟩
    exact .malformed ht hd
  · refine .accepted ?_ (carries_envelope level args)
    rw [envelope_eq]
    rfl

end Workbench.Console
