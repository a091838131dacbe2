import ContractHost.Config.OfJson
import ContractHost.Config.OfToml
import ContractHost.Proofs.Document.Json
import ContractHost.Proofs.Document.Opening

/-!
# Names of Log Levels

The level that a host logs at has a name, and there are two who read it. A command line takes the
name in any case and takes `warning` for `warn`. A document takes the name as it is written and
nothing else. So every name in a document is also one on a command line, and it stands for the same
level there, but not the other way round: the two agree on a text exactly if it is the name of the
level in small letters, or no name for anybody.

This holds for documents of log options and of whole configurations, in JSON and in TOML, whatever
else they hold and wherever in them the level stands. The text of the level is one place in the
tree of such a document, and the reader turns it into the level and everything around it into what
it would be for any other text (`LogOptions.reader_place`, `Config.reader_place`).

## Main definitions

* `LogLevel.lowered`: A text in small letters.
* `LogOptions.LevelPlace`, `Config.LevelPlace`: The place of the level in a tree.
* `LogDocument`: A document with a level in it.
* `LogDocument.HasLevel`: The text that stands for the level.

## Theorems

* `LogLevel.ofName?_eq_some_iff`, `LogLevel.parse?_eq_some_iff`: Who takes which names.
* `LogOptions.reader_place`, `Config.reader_place`: The level of a document as it is read.
* `LogDocument.levels_named_exactly`: Documents against the command line.
-/

namespace ContractHost

/-! ## Names -/

namespace LogLevel

/-- A text in small letters. -/
def lowered (s : String) : String := String.ofList (s.toList.map Char.toLower)

/-- A document takes the names of the levels. -/
theorem ofName?_eq_some_iff {s : String} {l : LogLevel} : ofName? s = some l ↔ s = l.name := by
  constructor
  · intro h
    unfold ofName? at h
    split_ifs at h with herror hwarn hinfo hdebug htrace
    -- Each of the tests lets one name through.
    all_goals
      cases h
      assumption
  · rintro rfl
    cases l <;> rfl

/-- A command line takes what is one of the names in small letters, and one name more. -/
theorem parse?_eq_some_iff {s : String} {l : LogLevel} :
    parse? s = some l ↔ lowered s = l.name ∨ l = warn ∧ lowered s = "warning" := by
  have hparse : parse? s = if lowered s = "warning" then some warn else ofName? (lowered s) := rfl
  rw [hparse]
  by_cases halias : lowered s = "warning"
  · have hname : "warning" ≠ l.name := by cases l <;> decide
    rw [if_pos halias, halias, Option.some_inj]
    constructor
    · rintro rfl
      exact Or.inr ⟨rfl, rfl⟩
    · rintro (h | ⟨rfl, -⟩)
      · exact absurd h hname
      · rfl
  · rw [if_neg halias, ofName?_eq_some_iff]
    constructor
    · exact Or.inl
    · rintro (h | ⟨-, h⟩)
      · exact h
      · exact absurd h halias

/-- The names have no capitals. -/
theorem lowered_name (l : LogLevel) : lowered l.name = l.name := by
  cases l <;> decide

theorem parse?_name (l : LogLevel) : parse? l.name = some l :=
  parse?_eq_some_iff.mpr (Or.inl (lowered_name l))

theorem reader_text (format : Format) (d : Nat) (s : String) :
    reader format d (.text s) = ofName? s := rfl

end LogLevel

/-! ## The place of the level -/

namespace LogOptions

/-- A tree of log options as it depends on the text that stands for the level. -/
def LevelPlace (place : String → Node) : Prop :=
  ∃ o : Node.Opening, o.Stands ["level", "json"] "level" ∧ ∀ s, place s = o.fill "level" (.text s)

/-- Log options are refused whatever stands for the level, or the level is all that depends on
    it. -/
theorem reader_place {place : String → Node} (h : LevelPlace place) (format : Format) (d : Nat) :
    (∀ s, reader format d (place s) = none) ∨
      ∃ o : LogOptions, ∀ s,
        reader format d (place s) = (LogLevel.ofName? s).map fun l => { o with level := l } := by
  rcases h with ⟨o, ho, hplace⟩
  rcases Reader.fieldsIn_fill format (by decide) ho d with
    hrefused | ⟨d', front, back, hfront, hfound⟩
  · refine Or.inl fun s => ?_
    rw [hplace, reader, hrefused]
    rfl
  -- The level is looked up in its place, and the other member somewhere else.
  have hread : ∀ s, reader format d (place s) = (LogLevel.ofName? s).bind fun l =>
      (Fields.getD ⟨d', front ++ back⟩ "json" standard.json Reader.bool).bind fun json =>
        some ⟨l, json⟩ := by
    intro s
    rw [hplace, reader, hfound]
    dsimp only [Option.bind_eq_bind, Option.bind_some]
    rw [Fields.getD_open hfront, Fields.getD_of_ne (by decide), LogLevel.reader_text]
  cases hjson : Fields.getD ⟨d', front ++ back⟩ "json" standard.json Reader.bool with
  | none =>
      refine Or.inl fun s => ?_
      rw [hread, hjson]
      cases LogLevel.ofName? s <;> rfl
  | some json =>
      refine Or.inr ⟨⟨standard.level, json⟩, fun s => ?_⟩
      rw [hread, hjson]
      cases LogLevel.ofName? s <;> rfl

/-- Log options are refused whatever stands for the level, or they are read with the level of this
    name. -/
theorem level_place {place : String → Node} (h : LevelPlace place) (format : Format) (d : Nat) :
    (∀ s, (reader format d (place s)).map (·.level) = none) ∨
      ∀ s, (reader format d (place s)).map (·.level) = LogLevel.ofName? s := by
  rcases reader_place h format d with hrefused | ⟨o, ho⟩
  · refine Or.inl fun s => ?_
    rw [hrefused]
    rfl
  · refine Or.inr fun s => ?_
    rw [ho, Option.map_map]
    exact Option.map_id_apply

end LogOptions

namespace Config

/-- A tree of a configuration as it depends on the text that stands for the level. -/
def LevelPlace (place : String → Node) : Prop :=
  ∃ (o : Node.Opening) (options : String → Node),
    o.Stands ["gas", "cache", "log", "max_call_depth", "print_debug"] "log" ∧
      LogOptions.LevelPlace options ∧ ∀ s, place s = o.fill "log" (options s)

/-- A configuration of what its members are read as. -/
def ofMembers (gas : Option Prices) (cache : Option CacheOptions) (log : Option LogOptions)
    (maxCallDepth : Option UInt32) (printDebug : Option Bool) : Option Config := do
  some ⟨← gas, ← cache, ← log, ← maxCallDepth, ← printDebug⟩

/-- One of the other members is refused, or all that depends on the log options is these. -/
theorem ofMembers_log (gas : Option Prices) (cache : Option CacheOptions)
    (maxCallDepth : Option UInt32) (printDebug : Option Bool) :
    (∀ log, ofMembers gas cache log maxCallDepth printDebug = none) ∨
      ∃ c : Config, ∀ log, ofMembers gas cache log maxCallDepth printDebug =
        log.map fun log => { c with log := log } := by
  -- A member that is refused refuses the configuration, in front of the log options or behind them.
  rcases gas with _ | gas
  · exact Or.inl fun log => rfl
  rcases cache with _ | cache
  · exact Or.inl fun log => rfl
  rcases maxCallDepth with _ | maxCallDepth
  · exact Or.inl fun log => by cases log <;> rfl
  rcases printDebug with _ | printDebug
  · exact Or.inl fun log => by cases log <;> rfl
  refine Or.inr ⟨⟨gas, cache, standard.log, maxCallDepth, printDebug⟩, fun log => ?_⟩
  cases log <;> rfl

/-- A configuration is refused whatever stands for the level, or the level is all that depends on
    it. -/
theorem reader_place {place : String → Node} (h : LevelPlace place) (format : Format) (d : Nat) :
    (∀ s, reader format d (place s) = none) ∨
      ∃ c : Config, ∀ s, reader format d (place s) =
        (LogLevel.ofName? s).map fun l => { c with log := { c.log with level := l } } := by
  rcases h with ⟨o, options, ho, hoptions, hplace⟩
  rcases Reader.fieldsIn_fill format (by decide) ho d with
    hrefused | ⟨d', front, back, hfront, hfound⟩
  · refine Or.inl fun s => ?_
    rw [hplace, reader, hrefused]
    rfl
  -- The log options are looked up in their place, and the other members somewhere else.
  have hread : ∀ s, reader format d (place s) =
      ofMembers
        (Fields.getD ⟨d', front ++ back⟩ "gas" standard.gas (Prices.reader format))
        (Fields.getD ⟨d', front ++ back⟩ "cache" standard.cache (CacheOptions.reader format))
        (LogOptions.reader format d' (options s))
        (Fields.getD ⟨d', front ++ back⟩ "max_call_depth" standard.maxCallDepth Reader.word32)
        (Fields.getD ⟨d', front ++ back⟩ "print_debug" standard.printDebug Reader.bool) := by
    intro s
    rw [hplace, reader, hfound]
    dsimp only [Option.bind_eq_bind, Option.bind_some]
    rw [Fields.getD_open hfront, Fields.getD_of_ne (by decide), Fields.getD_of_ne (by decide),
      Fields.getD_of_ne (by decide), Fields.getD_of_ne (by decide)]
    rfl
  rcases ofMembers_log _ _ _ _ with hothers | ⟨c, hc⟩
  · exact Or.inl fun s => (hread s).trans (hothers _)
  rcases LogOptions.reader_place hoptions format d' with hrefused | ⟨log, hlog⟩
  · refine Or.inl fun s => ?_
    rw [hread, hc, hrefused]
    rfl
  · refine Or.inr ⟨{ c with log := log }, fun s => ?_⟩
    rw [hread, hc, hlog, Option.map_map]
    rfl

/-- Whether a configuration makes sense does not depend on what it logs. -/
theorem check_log (c : Config) (log : LogOptions) :
    check { c with log := log } = c.check.map fun c => { c with log := log } := by
  have hproblem : problem? { c with log := log } = c.problem? := rfl
  rw [check, check, hproblem]
  cases c.problem? <;> rfl

end Config

/-! ## Documents -/

/-- A document with a level in it. -/
inductive LogDocument
  | optionsJson (b : Bytes)
  | optionsToml (t : String)
  | configJson (b : Bytes)
  | configToml (t : String)

namespace LogDocument

/-- The level, if the document is read. -/
def level? : LogDocument → Option LogLevel
  | optionsJson b => (LogOptions.ofJson? b).map (·.level)
  | optionsToml t => (LogOptions.ofToml? t).map (·.level)
  | configJson b => (Config.ofJson? b).map (·.log.level)
  | configToml t => (Config.ofToml t).toOption.map (·.log.level)

/-- The tree of the document. -/
def tree? : LogDocument → Option Node
  | optionsJson b => Json.read? b
  | optionsToml t => Toml.read? t
  | configJson b => Json.read? b
  | configToml t => Toml.read? t

/-- The level, if a document of this kind is read that has the tree. -/
def levelIn? : LogDocument → Node → Option LogLevel
  | optionsJson _, n => (LogOptions.reader .json nestingLimit n).map (·.level)
  | optionsToml _, n => (LogOptions.reader .toml nestingLimit n).map (·.level)
  | configJson _, n => (Config.reader .json nestingLimit n).map (·.log.level)
  | configToml _, n =>
    ((Config.reader .toml nestingLimit n).bind fun c => c.check.toOption).map (·.log.level)

/-- A document is first read as a tree, and the level is read from that. -/
theorem level?_eq (doc : LogDocument) : doc.level? = doc.tree?.bind doc.levelIn? := by
  cases doc with
  | optionsJson b => exact Option.map_bind
  | optionsToml t => exact Option.map_bind
  | configJson b => exact Option.map_bind
  | configToml t =>
      dsimp only [level?, tree?, levelIn?, Config.ofToml]
      cases Toml.read? t with
      | none => rfl
      | some n =>
          change _ = Option.map _ ((Config.reader .toml nestingLimit n).bind _)
          rw [Option.bind_some]
          cases Config.reader .toml nestingLimit n <;> rfl

/-- The place of the level in a tree of the document's kind. -/
def Place : LogDocument → (String → Node) → Prop
  | optionsJson _ => LogOptions.LevelPlace
  | optionsToml _ => LogOptions.LevelPlace
  | configJson _ => Config.LevelPlace
  | configToml _ => Config.LevelPlace

/-- The text stands for the level, and if the document is refused, the text is to blame: with some
    other text in its place it would be read. -/
def HasLevel (doc : LogDocument) (s : String) : Prop :=
  ∃ place, doc.Place place ∧ doc.tree? = some (place s) ∧
    ∃ s', (doc.levelIn? (place s')).isSome = true

/-- Trees that differ in the text of the level alone are all refused, or this text is read as the
    name of the level. -/
theorem levelIn?_place (doc : LogDocument) {place : String → Node} (h : doc.Place place) :
    (∀ s, doc.levelIn? (place s) = none) ∨
      ∀ s, doc.levelIn? (place s) = LogLevel.ofName? s := by
  cases doc with
  | optionsJson b => exact LogOptions.level_place h .json nestingLimit
  | optionsToml t => exact LogOptions.level_place h .toml nestingLimit
  | configJson b =>
      rcases Config.reader_place h .json nestingLimit with hrefused | ⟨c, hc⟩
      · refine Or.inl fun s => ?_
        rw [levelIn?, hrefused]
        rfl
      · refine Or.inr fun s => ?_
        rw [levelIn?, hc, Option.map_map]
        exact Option.map_id_apply
  | configToml t =>
      rcases Config.reader_place h .toml nestingLimit with hrefused | ⟨c, hc⟩
      · refine Or.inl fun s => ?_
        rw [levelIn?, hrefused]
        rfl
      -- A configuration that makes no sense does so with any level.
      have hlevel : ∀ s, (configToml t).levelIn? (place s) = (LogLevel.ofName? s).bind fun l =>
          c.check.toOption.map fun _ => l := by
        intro s
        rw [levelIn?, hc]
        cases LogLevel.ofName? s with
        | none => rfl
        | some l =>
            rw [Option.map_some, Option.bind_some, Config.check_log]
            cases c.check <;> rfl
      cases hcheck : c.check with
      | error e =>
          refine Or.inl fun s => ?_
          rw [hlevel, hcheck]
          cases LogLevel.ofName? s <;> rfl
      | ok c' =>
          refine Or.inr fun s => ?_
          rw [hlevel, hcheck]
          cases LogLevel.ofName? s <;> rfl

/-- If the text is all that can be wrong with a document, it is read as the name of a level. -/
theorem level?_of_hasLevel {doc : LogDocument} {s : String} (h : doc.HasLevel s) :
    doc.level? = LogLevel.ofName? s := by
  rcases h with ⟨place, hplace, htree, s', hs'⟩
  rw [level?_eq, htree, Option.bind_some]
  rcases doc.levelIn?_place hplace with hrefused | hnamed
  · rw [hrefused] at hs'
    cases hs'
  · exact hnamed s

/-- A document whose level is given by a text has a level exactly if the text is the name of one as
    it is written. A command line takes the text in small letters, and `warning` as well. So all
    levels of documents are also those of a command line, and the two agree on a text exactly if
    there is no level that a command line takes it for by another spelling. -/
theorem levels_named_exactly {doc : LogDocument} {s : String} (h : doc.HasLevel s) :
    (∀ l, doc.level? = some l ↔ s = l.name) ∧
      (∀ l, LogLevel.parse? s = some l ↔
        LogLevel.lowered s = l.name ∨ l = .warn ∧ LogLevel.lowered s = "warning") ∧
      (∀ l, doc.level? = some l → LogLevel.parse? s = some l) ∧
      (doc.level? = LogLevel.parse? s ↔ ∀ l, LogLevel.parse? s = some l → s = l.name) := by
  have hexact : ∀ l, doc.level? = some l ↔ s = l.name := by
    intro l
    rw [level?_of_hasLevel h, LogLevel.ofName?_eq_some_iff]
  have htaken : ∀ l, doc.level? = some l → LogLevel.parse? s = some l := by
    intro l hl
    rw [(hexact l).mp hl]
    exact LogLevel.parse?_name l
  -- The command line takes all that the document takes, so they agree if it takes no more.
  refine ⟨hexact, fun l => LogLevel.parse?_eq_some_iff, htaken, ?_⟩
  constructor
  · intro hagree l hl
    exact (hexact l).mp (hagree.trans hl)
  · intro hspelt
    refine Option.ext fun l => ⟨htaken l, fun hl => ?_⟩
    exact (hexact l).mpr (hspelt l hl)

/-- A configuration file with a level among other members. -/
theorem levels_named_exactly_of_file :
    HasLevel (configToml "max_call_depth = 3\n[log]\njson = true\nlevel = \"warn\"") "warn" ∧
      level? (configToml "max_call_depth = 3\n[log]\njson = true\nlevel = \"warn\"") =
        some .warn ∧
      LogLevel.parse? "warn" = some .warn := by
  have h : HasLevel (configToml "max_call_depth = 3\n[log]\njson = true\nlevel = \"warn\"")
      "warn" := by
    refine ⟨fun s => .record [(some "max_call_depth", .integer 3),
      (some "log", .record [(some "json", .bool true), (some "level", .text s)])], ?_, ?_, ?_⟩
    · refine ⟨.member [(some "max_call_depth", .integer 3)] [],
        fun s => .record [(some "json", .bool true), (some "level", .text s)], by decide, ?_,
        fun s => rfl⟩
      exact ⟨.member [(some "json", .bool true)] [], by decide, fun s => rfl⟩
    · exact Json.eq_some_of_write (d := 2) (by decide) (by decide +kernel)
    · exact ⟨"info", by decide +kernel⟩
  have hlevel := ((levels_named_exactly h).1 .warn).mpr rfl
  exact ⟨h, hlevel, (levels_named_exactly h).2.2.1 .warn hlevel⟩

/-- A level in capitals is one for a command line and none for a configuration file. -/
theorem capitals_refused :
    HasLevel (configToml "[log]\nlevel = \"Error\"") "Error" ∧
      level? (configToml "[log]\nlevel = \"Error\"") = none ∧
      LogLevel.parse? "Error" = some .error := by
  refine ⟨⟨fun s => .record [(some "log", .record [(some "level", .text s)])], ?_, ?_, ?_⟩, ?_, ?_⟩
  · exact ⟨.member [] [], fun s => .record [(some "level", .text s)], by decide,
      ⟨.member [] [], by decide, fun s => rfl⟩, fun s => rfl⟩
  · exact Json.eq_some_of_write (d := 2) (by decide) (by decide +kernel)
  · exact ⟨"info", by decide +kernel⟩
  · decide +kernel
  · decide

end LogDocument

end ContractHost
