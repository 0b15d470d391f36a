import HopTorrent.Configuration
import HopTorrent.Proofs.Chain.Listed
import HopTorrent.Proofs.Chain.Retry
import HopTorrent.Proofs.Error
import HopTorrent.Proofs.Text.Numeral

/-!
# Proofs/Configuration — which variables are settings, and which settings they are

A variable counts when it holds more than blanks (`Given`).  The variables are settings when the
chain is a list of addresses and the two numbers are numerals in their range (`Sound`), and then they
are exactly the settings that they say (`ofLookup_eq_ok_iff`).  Such settings never refuse a dial by
themselves (`ofLookup_judged`).
-/

namespace HopTorrent.Configuration

variable {lookup lookup' : Lookup} {name value default : String} {limit n : Nat}
  {c : Configuration} {e : Error}

/-! ## One variable -/

/-- **A variable is given** when it has a value that is more than blanks. -/
structure Given (lookup : Lookup) (name value : String) : Prop where
  has : lookup name = some value
  present : ∃ c ∈ value.toList, Text.isBlank c = false

/-- **A variable is omitted** when it is missing, or blank. -/
def Omitted (lookup : Lookup) (name : String) : Prop :=
  ∀ value, lookup name = some value → ∀ c ∈ value.toList, Text.isBlank c = true

/-- The values that count are those of given variables. -/
theorem value?_eq_some_iff : value? lookup name = some value ↔ Given lookup name value := by
  rw [value?, Option.bind_eq_some_iff]
  constructor
  · rintro ⟨raw, hraw, hp⟩
    rw [Text.present?] at hp
    split at hp
    · cases hp
    · next hb =>
      cases hp
      exact ⟨hraw, Text.isBlankText_eq_false_iff.mp (Bool.eq_false_of_not_eq_true hb)⟩
  · rintro ⟨hraw, hp⟩
    refine ⟨value, hraw, ?_⟩
    rw [Text.present?, Text.isBlankText_eq_false_iff.mpr hp]
    rfl

/-- The others are omitted. -/
theorem value?_eq_none_iff : value? lookup name = none ↔ Omitted lookup name := by
  simp only [Option.eq_none_iff_forall_ne_some, ne_eq, value?_eq_some_iff]
  constructor
  · intro h value hv
    by_contra hne
    push Not at hne
    exact h value ⟨hv, hne.imp fun c hc => ⟨hc.1, Bool.eq_false_of_not_eq_true hc.2⟩⟩
  · rintro h value ⟨hv, c, hc, hb⟩
    exact absurd (h value hv c hc) (by simp [hb])

/-- **A text is what a variable says**, or its default where that is omitted. -/
def Stands (lookup : Lookup) (name default text : String) : Prop :=
  Given lookup name text ∨ Omitted lookup name ∧ text = default

theorem getD_value?_eq_iff {text : String} :
    (value? lookup name).getD default = text ↔ Stands lookup name default text := by
  rw [Stands, ← value?_eq_some_iff, ← value?_eq_none_iff]
  cases value? lookup name with
  | none => simp [eq_comm]
  | some value => simp

theorem Stands.eq_of_given {text : String} (h : Stands lookup name default text)
    (hg : Given lookup name value) : text = value := by
  rw [← getD_value?_eq_iff.mpr h, value?_eq_some_iff.mpr hg, Option.getD_some]

theorem Stands.eq_of_omitted {text : String} (h : Stands lookup name default text)
    (ho : Omitted lookup name) : text = default := by
  rw [← getD_value?_eq_iff.mpr h, value?_eq_none_iff.mpr ho, Option.getD_none]

theorem Stands.unique {text text' : String} (h : Stands lookup name default text)
    (h' : Stands lookup name default text') : text = text' :=
  (getD_value?_eq_iff.mpr h).symm.trans (getD_value?_eq_iff.mpr h')

/-- **A variable holds a number** when what stands between its blanks is a numeral of it. -/
structure Holds (lookup : Lookup) (name : String) (n : Nat) : Prop where
  numeral : ∃ value core, Given lookup name value ∧ Text.Core value.toList core
    ∧ Text.Numeral core n

/-- The numbers held within a limit are those that are read. -/
theorem holds_and_le_iff : Holds lookup name n ∧ n ≤ limit ↔ ∃ value, value? lookup name = some value
    ∧ Text.natural? limit (Text.trimBlanks value.toList) = some n := by
  simp only [value?_eq_some_iff, Text.natural?_eq_some_iff_numeral]
  constructor
  · rintro ⟨⟨value, core, hg, hc, hn⟩, hl⟩
    exact ⟨value, hg, Text.trimBlanks_eq_iff.mpr hc ▸ hn, hl⟩
  · rintro ⟨value, hg, hn, hl⟩
    exact ⟨⟨value, _, hg, Text.trimBlanks_eq_iff.mp rfl, hn⟩, hl⟩

/-- **The number of a variable is the one it holds**, none if that is omitted. -/
theorem number?_eq_ok_iff {r : Option Nat} : number? lookup name limit = .ok r
    ↔ (Omitted lookup name ∧ r = none) ∨ ∃ n, (Holds lookup name n ∧ n ≤ limit) ∧ r = some n := by
  simp only [← value?_eq_none_iff, holds_and_le_iff, number?]
  cases value? lookup name with
  | none => simp [eq_comm]
  | some value =>
    simp only [Option.some.injEq, exists_eq_left', reduceCtorEq, false_and, false_or]
    cases Text.natural? limit (Text.trimBlanks value.toList) with
    | none => simp
    | some n => simp [eq_comm]

/-- What is no number is refused by the name of the variable. -/
theorem number?_error (h : number? lookup name limit = .error e) :
    e = .config (name ++ " is not a valid number") := by
  rw [number?] at h
  split at h
  · cases h
  · split at h <;> cases h
    rfl

/-! ## All variables -/

/-- **The hops that are asked for**: those of the list, or one on this machine. -/
def Hops (lookup : Lookup) (hops : List String) : Prop :=
  (Omitted lookup "B2_PROXY_CHAIN" ∧ hops = ["127.0.0.1:9050"])
    ∨ ∃ list, Given lookup "B2_PROXY_CHAIN" list ∧ Chain.Names list hops

/-- **The attempts that are asked for**: a positive number of 32 bits, or three. -/
def Attempts (lookup : Lookup) (n : Nat) : Prop :=
  (Omitted lookup "B2_DIAL_RETRIES" ∧ n = 3)
    ∨ (Holds lookup "B2_DIAL_RETRIES" n ∧ 1 ≤ n ∧ n ≤ 2 ^ 32 - 1)

/-- **The seconds that are asked for**: a number of 64 bits, or sixty. -/
def Seconds (lookup : Lookup) (n : Nat) : Prop :=
  (Omitted lookup "B2_METADATA_TIMEOUT_SECS" ∧ n = 60)
    ∨ (Holds lookup "B2_METADATA_TIMEOUT_SECS" n ∧ n ≤ 2 ^ 64 - 1)

theorem chainOf_eq_ok_iff {chain : Chain} :
    chainOf lookup = .ok chain ↔ Hops lookup chain.hops := by
  simp only [Hops, ← value?_eq_some_iff, ← value?_eq_none_iff, chainOf]
  have hd : defaultHop = "127.0.0.1:9050" := rfl
  cases value? lookup "B2_PROXY_CHAIN" with
  | none => rw [hd, Chain.ofHops_eq_ok_iff]; simp [eq_comm]
  | some list => simp [Chain.parse_eq_ok_iff]

theorem attemptsOf_eq_ok_iff : attemptsOf lookup = .ok n ↔ Attempts lookup n := by
  rw [attemptsOf, Error.bind_eq_ok_iff]
  simp only [number?_eq_ok_iff]
  constructor
  · rintro ⟨_, ⟨ho, rfl⟩ | ⟨m, ⟨hm, hl⟩, rfl⟩, hn⟩
    · cases hn
      exact .inl ⟨ho, rfl⟩
    · cases m with
      | zero => cases hn
      | succ m =>
        cases hn
        exact .inr ⟨hm, Nat.succ_pos m, hl⟩
  · rintro (⟨ho, rfl⟩ | ⟨hm, hp, hl⟩)
    · exact ⟨none, .inl ⟨ho, rfl⟩, rfl⟩
    · obtain ⟨m, rfl⟩ := Nat.exists_eq_succ_of_ne_zero (Nat.ne_of_gt hp)
      exact ⟨some (m + 1), .inr ⟨_, ⟨hm, hl⟩, rfl⟩, rfl⟩

/-- Attempts are refused in one of two ways. -/
theorem attemptsOf_error (h : attemptsOf lookup = .error e) :
    e = .config "B2_DIAL_RETRIES is not a valid number"
      ∨ e = .config "B2_DIAL_RETRIES must be at least 1" := by
  obtain h | ⟨n, -, h⟩ := Error.bind_eq_error_iff.mp h
  · exact .inl (number?_error h)
  · match n, h with
    | some 0, h => cases h; exact .inr rfl

/-! ### The parts of the settings -/

/-- The attempts of a dial and the seconds an add waits. -/
def numbersOf (lookup : Lookup) : Except Error (Nat × Nat) := do
  let attempts ← attemptsOf lookup
  let timeout ← number? lookup "B2_METADATA_TIMEOUT_SECS" Text.max64
  return (attempts, timeout.getD defaultMetadataTimeoutSecs)

/-- The settings with a chain and these numbers. -/
def settled (lookup : Lookup) (chain : Chain) (numbers : Nat × Nat) : Configuration where
  bind := (value? lookup "B2_BIND").getD defaultBind
  dataDir := (value? lookup "B2_DATA_DIR").getD defaultDataDir
  chain
  dialing := { Chain.Policy.standard with
    maxAttempts := numbers.1
    probeAddress := (value? lookup "B2_PROBE_ADDR").getD Chain.defaultProbeAddress }
  metadataTimeoutSecs := numbers.2
  limits := .standard
  database := ⟨(value? lookup "B2_DB_PATH").getD
    (Storage.joinPath ((value? lookup "B2_DATA_DIR").getD defaultDataDir) Storage.defaultName), false⟩

/-- **The chain is looked at first, then the numbers**; nothing else can be refused. -/
theorem ofLookup_eq (lookup : Lookup) : ofLookup lookup = do
    let chain ← chainOf lookup
    let numbers ← numbersOf lookup
    return settled lookup chain numbers := by
  rw [ofLookup, numbersOf]
  simp only [bind_assoc, pure_bind]
  rfl

theorem numbersOf_eq_ok_iff {attempts seconds : Nat} : numbersOf lookup = .ok (attempts, seconds)
    ↔ Attempts lookup attempts ∧ Seconds lookup seconds := by
  simp only [numbersOf, Error.bind_eq_ok_iff, number?_eq_ok_iff, attemptsOf_eq_ok_iff]
  constructor
  · rintro ⟨_, ha, _, ⟨ho, rfl⟩ | ⟨m, ⟨hm, hl⟩, rfl⟩, hp⟩ <;> cases hp
    · exact ⟨ha, .inl ⟨ho, rfl⟩⟩
    · exact ⟨ha, .inr ⟨hm, hl⟩⟩
  · rintro ⟨ha, ⟨ho, rfl⟩ | ⟨hm, hl⟩⟩
    · exact ⟨_, ha, none, .inl ⟨ho, rfl⟩, rfl⟩
    · exact ⟨_, ha, some seconds, .inr ⟨_, ⟨hm, hl⟩, rfl⟩, rfl⟩

/-- Numbers are refused by the name of their variable. -/
theorem numbersOf_error (h : numbersOf lookup = .error e) :
    ∃ why, e = .config ("B2_" ++ why) := by
  obtain h | ⟨n, -, h⟩ := Error.bind_eq_error_iff.mp h
  · exact (attemptsOf_error h).elim (fun h => ⟨"DIAL_RETRIES is not a valid number", h⟩)
      fun h => ⟨"DIAL_RETRIES must be at least 1", h⟩
  · obtain h | ⟨m, -, h⟩ := Error.bind_eq_error_iff.mp h
    · exact ⟨"METADATA_TIMEOUT_SECS is not a valid number", number?_error h⟩
    · cases h

/-! ## What the settings say -/

/-- **What the variables say.**  Each setting is what its variable says, or its default. -/
structure Settles (lookup : Lookup) (c : Configuration) : Prop where
  bind : Stands lookup "B2_BIND" "127.0.0.1:8080" c.bind
  dataDir : Stands lookup "B2_DATA_DIR" "./downloads" c.dataDir
  hops : Hops lookup c.chain.hops
  attempts : Attempts lookup c.dialing.maxAttempts
  probe : Stands lookup "B2_PROBE_ADDR" "1.1.1.1:80" c.dialing.probeAddress
  /-- The rest of how a chain is dialed is not for the variables to say. -/
  dialing : c.dialing = { Chain.Policy.standard with
    maxAttempts := c.dialing.maxAttempts, probeAddress := c.dialing.probeAddress }
  seconds : Seconds lookup c.metadataTimeoutSecs
  limits : c.limits = .standard
  /-- The database is in the data directory if nothing else is said. -/
  path : Stands lookup "B2_DB_PATH" (Storage.joinPath c.dataDir "b2torrent.db") c.database.path
  inMemory : c.database.inMemory = false

/-- **The settings are exactly what the variables say.** -/
theorem ofLookup_eq_ok_iff : ofLookup lookup = .ok c ↔ Settles lookup c := by
  rw [ofLookup_eq]
  simp only [Error.bind_eq_ok_iff, Prod.exists, numbersOf_eq_ok_iff, chainOf_eq_ok_iff]
  constructor
  · rintro ⟨chain, hc, attempts, seconds, ⟨ha, hs⟩, h⟩
    cases h
    exact ⟨getD_value?_eq_iff.mp rfl, getD_value?_eq_iff.mp rfl, hc, ha, getD_value?_eq_iff.mp rfl,
      rfl, hs, rfl, getD_value?_eq_iff.mp rfl, rfl⟩
  · intro h
    refine ⟨c.chain, h.hops, _, _, ⟨h.attempts, h.seconds⟩, congrArg Except.ok ?_⟩
    obtain ⟨bind, dataDir, chain, dialing, seconds, limits, path, inMemory⟩ := c
    obtain rfl : limits = .standard := h.limits
    obtain rfl : inMemory = false := h.inMemory
    have hb : (value? lookup "B2_BIND").getD defaultBind = bind := getD_value?_eq_iff.mpr h.bind
    have hd : (value? lookup "B2_DATA_DIR").getD defaultDataDir = dataDir :=
      getD_value?_eq_iff.mpr h.dataDir
    have hp : (value? lookup "B2_PROBE_ADDR").getD Chain.defaultProbeAddress = dialing.probeAddress :=
      getD_value?_eq_iff.mpr h.probe
    have hf : (value? lookup "B2_DB_PATH").getD (Storage.joinPath dataDir Storage.defaultName)
        = path := getD_value?_eq_iff.mpr h.path
    rw [settled, hb, hd, hp, hf]
    exact congrArg (Configuration.mk bind dataDir chain · seconds .standard ⟨path, false⟩)
      h.dialing.symm

/-! ## Which variables are settings -/

/-- **Sound numbers**: each is omitted, or a numeral in its range. -/
structure SoundNumbers (lookup : Lookup) : Prop where
  attempts : Omitted lookup "B2_DIAL_RETRIES"
    ∨ ∃ n, Holds lookup "B2_DIAL_RETRIES" n ∧ 1 ≤ n ∧ n ≤ 2 ^ 32 - 1
  seconds : Omitted lookup "B2_METADATA_TIMEOUT_SECS"
    ∨ ∃ n, Holds lookup "B2_METADATA_TIMEOUT_SECS" n ∧ n ≤ 2 ^ 64 - 1

/-- **Sound variables**: the chain is omitted, or a list that names addresses and at least one, and
the numbers are sound. -/
structure Sound (lookup : Lookup) : Prop extends SoundNumbers lookup where
  hops : Omitted lookup "B2_PROXY_CHAIN"
    ∨ ∃ list segments, Given lookup "B2_PROXY_CHAIN" list ∧ Chain.Names list segments
      ∧ segments ≠ [] ∧ ∀ hop ∈ segments, Address.accepts hop = true

theorem exists_numbersOf_iff : (∃ numbers, numbersOf lookup = .ok numbers) ↔ SoundNumbers lookup := by
  simp only [Prod.exists, numbersOf_eq_ok_iff, exists_and_left, exists_and_right]
  have attempts : (∃ n, Attempts lookup n) ↔ Omitted lookup "B2_DIAL_RETRIES"
      ∨ ∃ n, Holds lookup "B2_DIAL_RETRIES" n ∧ 1 ≤ n ∧ n ≤ 2 ^ 32 - 1 := by
    simp only [Attempts, exists_or, exists_and_left, exists_eq, and_true]
  have seconds : (∃ n, Seconds lookup n) ↔ Omitted lookup "B2_METADATA_TIMEOUT_SECS"
      ∨ ∃ n, Holds lookup "B2_METADATA_TIMEOUT_SECS" n ∧ n ≤ 2 ^ 64 - 1 := by
    simp only [Seconds, exists_or, exists_and_left, exists_eq, and_true]
  rw [attempts, seconds]
  exact ⟨fun ⟨ha, hs⟩ => ⟨ha, hs⟩, fun ⟨ha, hs⟩ => ⟨ha, hs⟩⟩

/-- The default chain is one. -/
theorem exists_ofHops_default : ∃ chain, Chain.ofHops [defaultHop] = .ok chain :=
  Chain.exists_ofHops_iff.mpr ⟨nofun, fun _ hm => List.mem_singleton.mp hm ▸ by decide⟩

theorem exists_chainOf_iff : (∃ chain, chainOf lookup = .ok chain)
    ↔ Omitted lookup "B2_PROXY_CHAIN"
      ∨ ∃ list segments, Given lookup "B2_PROXY_CHAIN" list ∧ Chain.Names list segments
        ∧ segments ≠ [] ∧ ∀ hop ∈ segments, Address.accepts hop = true := by
  simp only [← value?_eq_some_iff, ← value?_eq_none_iff, chainOf]
  cases value? lookup "B2_PROXY_CHAIN" with
  | none => exact iff_of_true exists_ofHops_default (.inl rfl)
  | some list => simp [Chain.exists_parse_iff]

/-- **Exactly sound variables are settings.** -/
theorem exists_ofLookup_iff : (∃ c, ofLookup lookup = .ok c) ↔ Sound lookup := by
  have parts : (∃ c, ofLookup lookup = .ok c)
      ↔ (∃ chain, chainOf lookup = .ok chain) ∧ ∃ numbers, numbersOf lookup = .ok numbers := by
    simp only [ofLookup_eq, Error.bind_eq_ok_iff]
    constructor
    · rintro ⟨-, chain, hc, numbers, hn, -⟩
      exact ⟨⟨chain, hc⟩, numbers, hn⟩
    · rintro ⟨⟨chain, hc⟩, numbers, hn⟩
      exact ⟨_, chain, hc, numbers, hn, rfl⟩
  rw [parts, exists_chainOf_iff, exists_numbersOf_iff]
  exact ⟨fun ⟨hc, hn⟩ => ⟨hn, hc⟩, fun ⟨hn, hc⟩ => ⟨hc, hn⟩⟩

/-- A chain is refused as the list that is given. -/
theorem chainOf_eq_error_iff : chainOf lookup = .error e
    ↔ ∃ list, Given lookup "B2_PROXY_CHAIN" list ∧ Chain.parse list = .error e := by
  simp only [← value?_eq_some_iff, chainOf]
  cases value? lookup "B2_PROXY_CHAIN" with
  | none =>
    obtain ⟨chain, hc⟩ := exists_ofHops_default
    simp [hc]
  | some list => simp

/-- **Variables that are no settings are refused as such.** -/
theorem ofLookup_error (h : ofLookup lookup = .error e) : ∃ why, e = .config why := by
  rw [ofLookup_eq] at h
  obtain h | ⟨chain, -, h⟩ := Error.bind_eq_error_iff.mp h
  · obtain ⟨list, -, h⟩ := chainOf_eq_error_iff.mp h
    exact (Chain.ofHops_error h).elim (fun h => ⟨_, h.2⟩) fun ⟨_, _, _, h⟩ => ⟨_, h⟩
  obtain h | ⟨numbers, -, h⟩ := Error.bind_eq_error_iff.mp h
  · obtain ⟨why, rfl⟩ := numbersOf_error h
    exact ⟨_, rfl⟩
  · cases h

/-- **A variable that is omitted might as well be missing**: only what is given matters, and only of
these variables. -/
theorem ofLookup_congr (h : ∀ name ∈ variableNames, ∀ value,
    Given lookup name value ↔ Given lookup' name value) : ofLookup lookup = ofLookup lookup' := by
  have hv : ∀ name ∈ variableNames, value? lookup name = value? lookup' name := fun name hm =>
    Option.ext fun value => by simp only [value?_eq_some_iff, h name hm value]
  simp only [variableNames, List.forall_mem_cons] at hv
  obtain ⟨hb, hd, hc, hr, hp, hs, hf, -⟩ := hv
  simp only [ofLookup, chainOf, attemptsOf, number?, hb, hd, hc, hr, hp, hs, hf]

/-! ## Settings and dials -/

/-- **A dial by settings may begin** over every network that there is. -/
theorem Settles.dial_begins (hc : Settles lookup c) {s : Chain.Setup} (hchain : s.chain = c.chain)
    (hpolicy : s.policy = c.dialing) (network address : String) (now : Nat) :
    (∀ e, checkNetwork network = .error e →
      (s.dial network address).run now = ⟨[], some (now, .error e)⟩)
    ∧ (checkNetwork network = .ok () → ∃ hop ∈ c.chain.hops,
      (DialEvent.dials ((s.dial network address).run now).events).head?
        = some (now, network, hop)) := by
  have hpos : 1 ≤ s.policy.maxAttempts := by
    rw [hpolicy]
    obtain ⟨-, h⟩ | ⟨-, h, -⟩ := hc.attempts <;> omega
  obtain ⟨left, hleft⟩ := Nat.exists_eq_succ_of_ne_zero (Nat.ne_of_gt hpos)
  refine ⟨fun e he => ?_, fun hn => hchain ▸ Chain.Setup.dialWith_begins address hn hpos now⟩
  rw [Chain.Setup.dial, hleft, Chain.Setup.dialWith, he]
  rfl

/-- **The settings of a service.**  What is to be known of the settings that variables give. -/
structure Judged (lookup : Lookup) : Prop where
  /-- There are settings exactly when the variables are sound. -/
  accepted : (∃ c, ofLookup lookup = .ok c) ↔ Sound lookup
  /-- They are exactly what the variables say. -/
  settled : ∀ c, ofLookup lookup = .ok c ↔ Settles lookup c
  /-- If there are none, that is the fault of the configuration. -/
  fails : ∀ e, ofLookup lookup = .error e → ∃ why, e = .config why
  /-- Nothing but what is given matters: a blank variable might as well be missing. -/
  blank : ∀ lookup' : Lookup, (∀ name ∈ variableNames, ∀ value,
    Given lookup name value ↔ Given lookup' name value) → ofLookup lookup = ofLookup lookup'
  /-- A dial by these settings is refused for its network only; else it dials a hop at once. -/
  dials : ∀ c, ofLookup lookup = .ok c → ∀ s : Chain.Setup, s.chain = c.chain →
    s.policy = c.dialing → ∀ network address now,
      (∀ e, checkNetwork network = .error e →
        (s.dial network address).run now = ⟨[], some (now, .error e)⟩)
      ∧ (checkNetwork network = .ok () → ∃ hop ∈ c.chain.hops,
        (DialEvent.dials ((s.dial network address).run now).events).head?
          = some (now, network, hop))

/-- **Variables are settings exactly when they are sound**, and then the settings are what they say
and good enough for every dial. -/
theorem ofLookup_judged (lookup : Lookup) : Judged lookup where
  accepted := exists_ofLookup_iff
  settled _ := ofLookup_eq_ok_iff
  fails _ := ofLookup_error
  blank _ := ofLookup_congr
  dials _ hc _ hchain hpolicy := (ofLookup_eq_ok_iff.mp hc).dial_begins hchain hpolicy

/-- Blanks around a number and a hop, and a piece that is only blanks. -/
example : ((ofLookup fun name =>
    if name = "B2_DIAL_RETRIES" then some " +02\u3000"
    else if name = "B2_PROXY_CHAIN" then some "a:1,\t, b:2"
    else none).toOption.map fun c => (c.dialing.maxAttempts, c.chain.hops))
      = some (2, ["a:1", "b:2"]) := by
  decide +kernel

end HopTorrent.Configuration
