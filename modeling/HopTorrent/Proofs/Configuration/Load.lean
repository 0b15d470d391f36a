import HopTorrent.Configuration.Load
import HopTorrent.Proofs.Configuration

/-!
# Proofs/Configuration/Load — what the command line overrides

The options replace what they name in the settings that the variables give (`load_eq_ok`).  Two
things are in the way of that.  A variable for the database keeps the database where the environment
has it when it exists, also when it says nothing: then the database does not follow the data
directory (`load_followed_iff`).  And a chain in the environment is looked at before it is replaced:
if it is refused, the service does not start (`load_overrides`).
-/

namespace HopTorrent.Configuration

variable {v w : Variables} {o : CommandLine.Options} {c c₀ : Configuration} {e : Error}

/-! ## What the options replace -/

/-- The place to listen is the one of the options, if they name one. -/
theorem withBind_eq (bind : Option String) (c : Configuration) :
    c.withBind bind = { c with bind := bind.getD c.bind } := by
  cases bind <;> rfl

/-- The hops are those of the options, if they name any. -/
theorem withProxies_eq_ok {hops : List String} (h : withProxies hops c₀ = .ok c) :
    ∃ chain : Chain, chain.hops = (if hops = [] then c₀.chain.hops else hops)
      ∧ c = { c₀ with chain } := by
  rw [withProxies] at h
  cases hops with
  | nil =>
    cases h
    exact ⟨c.chain, rfl, rfl⟩
  | cons hop hops =>
    change (Chain.ofHops (hop :: hops)).map _ = _ at h
    cases hc : Chain.ofHops (hop :: hops) with
    | error e =>
      rw [hc] at h
      cases h
    | ok chain =>
      rw [hc] at h
      cases h
      exact ⟨chain, (Chain.ofHops_eq_ok_iff.mp hc).symm, rfl⟩

/-- The data directory is the one of the options, if they name one. -/
@[simp] theorem withDataDir_dataDir (dir : Option String) :
    (c.withDataDir v dir).dataDir = dir.getD c.dataDir := by
  cases dir <;> rfl

@[simp] theorem withDataDir_bind (dir : Option String) : (c.withDataDir v dir).bind = c.bind := by
  cases dir <;> rfl

@[simp] theorem withDataDir_chain (dir : Option String) :
    (c.withDataDir v dir).chain = c.chain := by
  cases dir <;> rfl

/-- The database goes with the data directory of the options unless its variable exists. -/
@[simp] theorem withDataDir_path (dir : Option String) : (c.withDataDir v dir).database.path
    = if dir = none ∨ v.has "B2_DB_PATH" then c.database.path
      else Storage.joinPath (c.withDataDir v dir).dataDir "b2torrent.db" := by
  cases dir with
  | none => rfl
  | some dir =>
    simp only [withDataDir, reduceCtorEq, false_or]
    split <;> rfl

/-- **The options replace what they name.** -/
theorem load_eq_ok (h : load v o = .ok c) : ∃ c₀ : Configuration, ∃ chain : Chain,
    Settles v.lookup c₀
      ∧ chain.hops = (if o.proxies = [] then c₀.chain.hops else o.proxies)
      ∧ c = { c₀ with bind := o.bind.getD c₀.bind, chain }.withDataDir v o.dataDir := by
  rw [load] at h
  obtain ⟨c₀, h₀, h⟩ := Error.bind_eq_ok_iff.mp h
  obtain ⟨c₁, h₁, h⟩ := Error.bind_eq_ok_iff.mp h
  cases h
  rw [withBind_eq] at h₁
  obtain ⟨chain, hc, rfl⟩ := withProxies_eq_ok h₁
  exact ⟨c₀, chain, ofLookup_eq_ok_iff.mp h₀, hc, rfl⟩

/-! ## The database and the data directory -/

/-- **The database follows the data directory**, or is where its variable says. -/
structure Followed (v : Variables) (c : Configuration) : Prop where
  given : ∀ path, Given v.lookup "B2_DB_PATH" path → c.database.path = path
  omitted : Omitted v.lookup "B2_DB_PATH" →
    c.database.path = Storage.joinPath c.dataDir "b2torrent.db"

/-- **The database is left behind**: its variable exists, but says nothing, and the options move the
data directory away from where the environment has it. -/
structure LeftBehind (v : Variables) (o : CommandLine.Options) (env : String) : Prop where
  has : v.has "B2_DB_PATH" = true
  omitted : Omitted v.lookup "B2_DB_PATH"
  stands : Stands v.lookup "B2_DATA_DIR" "./downloads" env
  moved : ∃ dir, o.dataDir = some dir
    ∧ Storage.joinPath dir "b2torrent.db" ≠ Storage.joinPath env "b2torrent.db"

/-- A database that is left behind is in the data directory of the environment. -/
theorem LeftBehind.path {env : String} (hl : LeftBehind v o env) (h : load v o = .ok c) :
    c.database.path = Storage.joinPath env "b2torrent.db" := by
  obtain ⟨c₀, chain, h₀, -, rfl⟩ := load_eq_ok h
  have henv : env = c₀.dataDir := hl.stands.unique h₀.dataDir
  rw [withDataDir_path, if_pos (.inr hl.has), henv]
  exact h₀.path.eq_of_omitted hl.omitted

/-- A database that is left behind does not follow. -/
theorem LeftBehind.not_followed {env : String} (hl : LeftBehind v o env) (h : load v o = .ok c) :
    ¬ Followed v c := by
  intro hf
  obtain ⟨dir, hdir, hne⟩ := hl.moved
  have hpath := (hf.omitted hl.omitted).symm.trans (hl.path h)
  obtain ⟨c₀, chain, -, -, rfl⟩ := load_eq_ok h
  rw [withDataDir_dataDir, hdir] at hpath
  exact hne hpath

/-- A variable that says something is obeyed. -/
theorem path_of_given (h : load v o = .ok c) {path : String}
    (hg : Given v.lookup "B2_DB_PATH" path) : c.database.path = path := by
  obtain ⟨c₀, chain, h₀, -, rfl⟩ := load_eq_ok h
  have hhas : v.has "B2_DB_PATH" = true := by rw [Variables.has, hg.has]; rfl
  rw [withDataDir_path, if_pos (.inr hhas)]
  exact h₀.path.eq_of_given hg

/-- Without it, a database that is not left behind is in the data directory. -/
theorem path_of_omitted (h : load v o = .ok c) (ho : Omitted v.lookup "B2_DB_PATH")
    (hl : ∀ env, ¬ LeftBehind v o env) :
    c.database.path = Storage.joinPath c.dataDir "b2torrent.db" := by
  obtain ⟨c₀, chain, h₀, -, rfl⟩ := load_eq_ok h
  have hpath : c₀.database.path = Storage.joinPath c₀.dataDir "b2torrent.db" :=
    h₀.path.eq_of_omitted ho
  rw [withDataDir_path]
  split
  · next hstays =>
    rw [withDataDir_dataDir]
    cases hdir : o.dataDir with
    | none => exact hpath
    | some dir =>
      have hhas : v.has "B2_DB_PATH" = true := hstays.resolve_left (by simp [hdir])
      by_contra hne
      exact hl _ ⟨hhas, ho, h₀.dataDir, dir, hdir, fun heq => hne (hpath.trans heq.symm)⟩
  · rfl

/-- **The database follows the data directory exactly when it is not left behind.**  If it is, it
stays where the environment has its data directory. -/
theorem load_followed_iff (h : load v o = .ok c) :
    (Followed v c ↔ ∀ env, ¬ LeftBehind v o env)
      ∧ ∀ env, LeftBehind v o env → c.database.path = Storage.joinPath env "b2torrent.db" :=
  ⟨⟨fun hf _ hl => hl.not_followed h hf,
    fun hl => ⟨fun _ => path_of_given h, fun ho => path_of_omitted h ho hl⟩⟩, fun _ hl => hl.path h⟩

/-- A process whose variable for the database is blank. -/
def blankPath : Variables where
  lookup name := if name = "B2_DB_PATH" then some " " else none

/-- Another data directory. -/
def elsewhere : CommandLine.Options := ⟨false, none, [], some "other"⟩

/-- Settings with two directories. -/
theorem exists_load_elsewhere : ∃ c, load blankPath elsewhere = .ok c ∧ c.dataDir = "other"
    ∧ c.database.path = "./downloads/b2torrent.db" := by
  have h : (load blankPath elsewhere).toOption.map (fun c => (c.dataDir, c.database.path))
      = some ("other", "./downloads/b2torrent.db") := by decide +kernel
  obtain ⟨c, hc, h⟩ := Option.map_eq_some_iff.mp h
  obtain ⟨hd, hp⟩ := Prod.mk.inj h
  refine ⟨c, ?_, hd, hp⟩
  cases hl : load blankPath elsewhere with
  | error e => rw [hl] at hc; cases hc
  | ok c' => rw [hl] at hc; cases hc; rfl

/-- A blank variable keeps the database out of the data directory. -/
theorem load_followed_iff_elsewhere : ∃ c, load blankPath elsewhere = .ok c
    ∧ (Followed blankPath c ↔ ∀ env, ¬ LeftBehind blankPath elsewhere env)
    ∧ ∀ env, LeftBehind blankPath elsewhere env →
      c.database.path = Storage.joinPath env "b2torrent.db" := by
  obtain ⟨c, hc, -⟩ := exists_load_elsewhere
  exact ⟨c, hc, load_followed_iff hc⟩

/-- **Databases do not always follow the data directory.** -/
theorem not_forall_followed : ¬ ∀ v o c, load v o = .ok c → Followed v c := by
  intro h
  obtain ⟨c, hc, hd, hp⟩ := exists_load_elsewhere
  have hj : Storage.joinPath "other" "b2torrent.db" = "other/b2torrent.db" := by decide +kernel
  have ho : Omitted blankPath.lookup "B2_DB_PATH" := value?_eq_none_iff.mp (by decide +kernel)
  have hf := (h _ _ c hc).omitted ho
  rw [hp, hd, hj] at hf
  exact absurd hf (by decide)

/-! ## Overridden variables -/

/-- Two processes that differ in one variable only. -/
structure DifferOnlyIn (name : String) (v w : Variables) : Prop where
  lookup : ∀ other, other ≠ name → v.lookup other = w.lookup other
  garbled : ∀ other, other ≠ name → v.garbled other = w.garbled other

namespace DifferOnlyIn

variable {name other : String}

theorem value? (h : DifferOnlyIn name v w) (ho : other ≠ name) :
    Configuration.value? v.lookup other = Configuration.value? w.lookup other := by
  rw [Configuration.value?, Configuration.value?, h.lookup other ho]

theorem has (h : DifferOnlyIn name v w) (ho : other ≠ name) : v.has other = w.has other := by
  rw [Variables.has, Variables.has, h.lookup other ho, h.garbled other ho]

/-- Numbers depend on their variables only. -/
theorem numbersOf (h : DifferOnlyIn name v w) (hr : "B2_DIAL_RETRIES" ≠ name)
    (hs : "B2_METADATA_TIMEOUT_SECS" ≠ name) :
    Configuration.numbersOf v.lookup = Configuration.numbersOf w.lookup := by
  simp only [Configuration.numbersOf, attemptsOf, number?, h.value? hr, h.value? hs]

/-- The chain depends on its variable only. -/
theorem chainOf (h : DifferOnlyIn name v w) (hc : "B2_PROXY_CHAIN" ≠ name) :
    Configuration.chainOf v.lookup = Configuration.chainOf w.lookup := by
  simp only [Configuration.chainOf, h.value? hc]

theorem withDataDir (h : DifferOnlyIn name v w) (hd : "B2_DB_PATH" ≠ name) (dir : Option String)
    (c : Configuration) : c.withDataDir v dir = c.withDataDir w dir := by
  cases dir with
  | none => rfl
  | some dir => simp only [Configuration.withDataDir, h.has hd]

end DifferOnlyIn

/-- A place to listen that is named overrides its variable. -/
theorem load_congr_of_bind (h : DifferOnlyIn "B2_BIND" v w) {bind : String}
    (hb : o.bind = some bind) : load v o = load w o := by
  have hs : ∀ chain numbers, (settled v.lookup chain numbers).withBind o.bind
      = (settled w.lookup chain numbers).withBind o.bind := fun chain numbers => by
    simp (disch := decide) only [withBind_eq, hb, Option.getD_some, settled, h.value?]
  simp only [load, ofLookup_eq, bind_assoc, pure_bind, h.chainOf (by decide),
    h.numbersOf (by decide) (by decide), hs, h.withDataDir (by decide)]

/-! ### The chain -/

/-- What is left to do for hops that are named, once the chain of the variables was looked at. -/
def loadNamed (v : Variables) (o : CommandLine.Options) : Except Error Configuration := do
  let numbers ← numbersOf v.lookup
  let chain ← Chain.ofHops o.proxies
  return ((settled v.lookup chain numbers).withBind o.bind).withDataDir v o.dataDir

/-- **Where hops are named, the chain of the variables is looked at and forgotten.** -/
theorem load_eq_of_proxies (hp : o.proxies ≠ []) :
    load v o = chainOf v.lookup >>= fun _ => loadNamed v o := by
  have hnamed : ∀ c : Configuration, c.withProxies o.proxies = do
      let chain ← Chain.ofHops o.proxies
      return { c with chain } := fun c => by
    rw [withProxies, if_neg (by simpa using hp)]
    cases Chain.ofHops o.proxies <;> rfl
  simp only [load, ofLookup_eq, loadNamed, hnamed, bind_assoc, pure_bind, withBind_eq]
  rfl

/-- What is left to do does not depend on the variable. -/
theorem loadNamed_congr (h : DifferOnlyIn "B2_PROXY_CHAIN" v w) : loadNamed v o = loadNamed w o := by
  have hs : ∀ chain numbers, settled v.lookup chain numbers = settled w.lookup chain numbers :=
    fun chain numbers => by simp (disch := decide) only [settled, h.value?]
  simp only [loadNamed, h.numbersOf (by decide) (by decide), hs, h.withDataDir (by decide)]

/-- **The chain of the variables is refused.** -/
def Refused (v : Variables) (e : Error) : Prop :=
  ∃ list, Given v.lookup "B2_PROXY_CHAIN" list ∧ Chain.parse list = .error e

/-- A chain is never refused in the words in which numbers are. -/
theorem Refused.numbersOf_ne (hr : Refused v e) : numbersOf w.lookup ≠ .error e := by
  intro hn
  obtain ⟨why, rfl⟩ := numbersOf_error hn
  obtain ⟨list, -, h⟩ := hr
  have first : ∀ {text}, Error.config ("B2_" ++ why) = .config text →
      text.toList.head? = some 'B' := fun h => by
    cases h
    rw [String.toList_append]
    rfl
  obtain ⟨-, h⟩ | ⟨hop, -, -, h⟩ := Chain.ofHops_error h
  · exact absurd (first h) (by decide)
  · have hi : some 'i' = some 'B' := by
      rw [← first h, String.toList_append]
      rfl
    exact absurd hi (by decide)

/-- What is left to do is refused for the numbers first, and then for the hops that are named. -/
theorem loadNamed_eq_error_iff : loadNamed v o = .error e ↔ numbersOf v.lookup = .error e
    ∨ SoundNumbers v.lookup ∧ Chain.ofHops o.proxies = .error e := by
  rw [loadNamed, Error.bind_eq_error_iff, ← exists_numbersOf_iff, ← exists_and_right]
  refine or_congr_right (exists_congr fun numbers => and_congr_right fun _ => ?_)
  rw [Error.bind_eq_error_iff]
  exact or_iff_left fun ⟨_, _, h⟩ => nomatch h

/-- **Which options start the service**, where hops are named. -/
theorem exists_load_iff (hp : o.proxies ≠ []) : (∃ c, load v o = .ok c)
    ↔ (∀ e, ¬ Refused v e) ∧ SoundNumbers v.lookup
      ∧ ∀ hop ∈ o.proxies, Address.accepts hop = true := by
  have hchain : (∃ chain, chainOf v.lookup = .ok chain) ↔ ∀ e, ¬ Refused v e := by
    simp only [Refused, ← chainOf_eq_error_iff]
    cases chainOf v.lookup <;> simp
  have hhops : (∃ chain, Chain.ofHops o.proxies = .ok chain)
      ↔ ∀ hop ∈ o.proxies, Address.accepts hop = true :=
    Chain.exists_ofHops_iff.trans (and_iff_right hp)
  rw [load_eq_of_proxies hp, ← hchain, ← exists_numbersOf_iff, ← hhops]
  simp only [Error.bind_eq_ok_iff, loadNamed]
  constructor
  · rintro ⟨-, chain, hc, numbers, hn, chain', ho, -⟩
    exact ⟨⟨chain, hc⟩, ⟨numbers, hn⟩, chain', ho⟩
  · rintro ⟨⟨chain, hc⟩, ⟨numbers, hn⟩, chain', ho⟩
    exact ⟨_, chain, hc, numbers, hn, chain', ho, rfl⟩

/-- **When the variable for the chain makes no difference**, where hops are named. -/
theorem load_eq_iff (hp : o.proxies ≠ []) (h : DifferOnlyIn "B2_PROXY_CHAIN" v w) :
    load v o = load w o ↔ (∀ e, Refused v e ↔ Refused w e)
      ∨ SoundNumbers v.lookup ∧ ∃ e, Chain.ofHops o.proxies = .error e
        ∧ ∀ e', Refused v e' ∨ Refused w e' → e' = e := by
  have hv : ∀ e, chainOf v.lookup = .error e ↔ Refused v e := fun _ => chainOf_eq_error_iff
  have hw : ∀ e, chainOf w.lookup = .error e ↔ Refused w e := fun _ => chainOf_eq_error_iff
  rw [load_eq_of_proxies hp, load_eq_of_proxies hp, ← loadNamed_congr h, Error.bind_const_eq_iff]
  simp only [hv, hw, loadNamed_eq_error_iff]
  constructor
  · rintro (hr | ⟨e, hn | ⟨hn, he⟩, hr⟩)
    · exact .inl hr
    · -- Refusals of numbers are not those of chains, so there is none of a chain.
      have none : ∀ e', ¬ (Refused v e' ∨ Refused w e') := fun e' h' => by
        cases hr e' h'
        exact h'.elim (fun h' => h'.numbersOf_ne hn) fun h' => h'.numbersOf_ne hn
      exact .inl fun e' => iff_of_false (fun h' => none e' (.inl h')) fun h' => none e' (.inr h')
    · exact .inr ⟨hn, e, he, hr⟩
  · rintro (hr | ⟨hn, e, he, hr⟩)
    · exact .inl hr
    · exact .inr ⟨e, .inr ⟨hn, he⟩, hr⟩

/-- **What the options override**, in one process and against another. -/
structure Overrides (v w : Variables) (o : CommandLine.Options) : Prop where
  /-- The place to listen is the one that the options name. -/
  bound : ∀ c, load v o = .ok c → ∀ bind, o.bind = some bind → c.bind = bind
  /-- So are the hops. -/
  hops : ∀ c, load v o = .ok c → o.proxies ≠ [] → c.chain.hops = o.proxies
  /-- Where a place to listen is named, its variable makes no difference. -/
  bind : ∀ bind, o.bind = some bind → DifferOnlyIn "B2_BIND" v w → load v o = load w o
  /-- Where hops are named, the service starts when these are addresses and the numbers are sound,
  but only if the chain of the variables is not refused. -/
  starts : o.proxies ≠ [] → ((∃ c, load v o = .ok c)
    ↔ (∀ e, ¬ Refused v e) ∧ SoundNumbers v.lookup
      ∧ ∀ hop ∈ o.proxies, Address.accepts hop = true)
  /-- So their variable makes no difference exactly when it is refused alike, or when its refusal is
  the one that the hops meet anyway. -/
  proxies : o.proxies ≠ [] → DifferOnlyIn "B2_PROXY_CHAIN" v w → (load v o = load w o
    ↔ (∀ e, Refused v e ↔ Refused w e)
      ∨ SoundNumbers v.lookup ∧ ∃ e, Chain.ofHops o.proxies = .error e
        ∧ ∀ e', Refused v e' ∨ Refused w e' → e' = e)

/-- **Options override their variables, but a chain that is refused is not overridden.** -/
theorem load_overrides (v w : Variables) (o : CommandLine.Options) : Overrides v w o where
  bound c h bind hb := by
    obtain ⟨c₀, chain, -, -, rfl⟩ := load_eq_ok h
    rw [withDataDir_bind, hb, Option.getD_some]
  hops c h hp := by
    obtain ⟨c₀, chain, -, hc, rfl⟩ := load_eq_ok h
    rw [withDataDir_chain, hc, if_neg hp]
  bind _ hb h := load_congr_of_bind h hb
  starts := exists_load_iff
  proxies := load_eq_iff

/-- A process with a chain in its environment that is no address. -/
def badChain : Variables where
  lookup name := if name = "B2_PROXY_CHAIN" then some "no-port" else none

/-- A process without variables. -/
def bare : Variables where
  lookup _ := none

/-- One hop that is named. -/
def oneHop : CommandLine.Options := ⟨false, none, ["a:1"], none⟩

/-- **Hops that are named do not always override their variable.** -/
theorem not_forall_overridden : ¬ ∀ v w o, o.proxies ≠ [] → DifferOnlyIn "B2_PROXY_CHAIN" v w →
    load v o = load w o := by
  intro h
  have hd : DifferOnlyIn "B2_PROXY_CHAIN" badChain bare :=
    ⟨fun other ho => if_neg ho, fun _ _ => rfl⟩
  have hl := congrArg Except.isOk (h badChain bare oneHop (by decide) hd)
  exact absurd hl (by decide +kernel)

end HopTorrent.Configuration
