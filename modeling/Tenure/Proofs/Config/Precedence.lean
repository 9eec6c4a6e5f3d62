import Tenure.CommandLine.Launch
import Tenure.Proofs.Toml.Naming

/-!
# Which value of a setting counts

A setting may be given in four places: as an argument, in a file, in a variable
of the environment, and by its default. The first of these that gives it should
count.

It does, but for one thing. The layers are merged as whole configurations, in
which a setting that is not given has its default value, and `Config.merge` lets
a lower layer show through wherever the upper one has the default. So an
argument or a file can set a setting to anything but its default
(`Setting.chosen`); to repeat the default there does not bring it back once a
lower layer has said otherwise (`not_givenCounts`).
-/

namespace Tenure.Config

/-! ## Settings -/

/-- The kinds of values that settings have. -/
inductive Kind : Type → Type where
  | text : Kind String
  | word64 : Kind UInt64
  | word32 : Kind UInt32
  | fraction : Kind Float

namespace Kind

variable {α : Type}

/-- The value that the text of a variable stands for. -/
def readText : Kind α → String → Option α
  | .text, s => some s
  | .word64, s => (readWhole UInt64.size s).map UInt64.ofNat
  | .word32, s => (readWhole UInt32.size s).map UInt32.ofNat
  | .fraction, s => Decimal.readFloat (Text.trim s)

/-- The value that an item of a file stands for. -/
def readItem : Kind α → Toml.Item → Except Mismatch α
  | .text => textOf
  | .word64 => word64Of
  | .word32 => word32Of
  | .fraction => floatOf

/-- Whether two values differ. -/
def differ : Kind α → α → α → Bool
  | .text, x, y => x != y
  | .word64, x, y => x != y
  | .word32, x, y => x != y
  | .fraction, x, y => x != y

end Kind

/-- **A setting**, with the type of its values. -/
inductive Setting : Type → Type where
  | identity : Setting String
  | leaseName : Setting String
  | leaseNamespace : Setting String
  | leaseDuration : Setting UInt64
  | renewInterval : Setting UInt64
  | retryPeriod : Setting UInt64
  | jitterFactor : Setting Float
  | maxBackoff : Setting UInt64
  | workerCount : Setting UInt32
  | cacheSyncTimeout : Setting UInt64
  | requeueDelay : Setting UInt64

namespace Setting

variable {α β : Type}

def kind : Setting α → Kind α
  | .identity => .text
  | .leaseName => .text
  | .leaseNamespace => .text
  | .leaseDuration => .word64
  | .renewInterval => .word64
  | .retryPeriod => .word64
  | .jitterFactor => .fraction
  | .maxBackoff => .word64
  | .workerCount => .word32
  | .cacheSyncTimeout => .word64
  | .requeueDelay => .word64

/-- The value in a configuration. -/
def get : Setting α → Config → α
  | .identity, c => c.identity
  | .leaseName, c => c.leaseName
  | .leaseNamespace, c => c.leaseNamespace
  | .leaseDuration, c => c.leaseDuration
  | .renewInterval, c => c.renewInterval
  | .retryPeriod, c => c.retryPeriod
  | .jitterFactor, c => c.jitterFactor
  | .maxBackoff, c => c.maxBackoff
  | .workerCount, c => c.workerCount
  | .cacheSyncTimeout, c => c.cacheSyncTimeout
  | .requeueDelay, c => c.requeueDelay

/-- The name in a file. -/
def name : Setting α → String
  | .identity => "identity"
  | .leaseName => "lease_name"
  | .leaseNamespace => "lease_namespace"
  | .leaseDuration => "lease_duration_ms"
  | .renewInterval => "renew_interval_ms"
  | .retryPeriod => "retry_period_ms"
  | .jitterFactor => "jitter_factor"
  | .maxBackoff => "max_backoff_ms"
  | .workerCount => "worker_count"
  | .cacheSyncTimeout => "cache_sync_timeout_ms"
  | .requeueDelay => "requeue_delay_ms"

/-- The variable, without what the names of all variables begin with. -/
def variableName : Setting α → String
  | .identity => "IDENTITY"
  | .leaseName => "LEASE_NAME"
  | .leaseNamespace => "LEASE_NAMESPACE"
  | .leaseDuration => "LEASE_DURATION_MS"
  | .renewInterval => "RENEW_INTERVAL_MS"
  | .retryPeriod => "RETRY_PERIOD_MS"
  | .jitterFactor => "JITTER_FACTOR"
  | .maxBackoff => "MAX_BACKOFF_MS"
  | .workerCount => "WORKER_COUNT"
  | .cacheSyncTimeout => "CACHE_SYNC_TIMEOUT_MS"
  | .requeueDelay => "REQUEUE_DELAY_MS"

/-- The value that the arguments give. Not every setting has an argument. -/
def fromArguments? : Setting α → CommandLine.Arguments → Option α
  | .identity, a => a.identity
  | .leaseName, a => a.leaseName
  | .leaseNamespace, a => a.leaseNamespace
  | .leaseDuration, a => a.leaseDuration
  | .renewInterval, a => a.renewInterval
  | .retryPeriod, a => a.retryPeriod
  | .workerCount, a => a.workerCount
  | .cacheSyncTimeout, a => a.cacheSyncTimeout
  | _, _ => none

/-- The value that a file gives. -/
def fromFile? (f : Setting α) (ms : Toml.Members) : Option α :=
  (ms.get? f.name).bind fun item => (f.kind.readItem item).toOption

/-- The value that a variable gives, if it is set and can be read. -/
def fromVariable? (f : Setting α) (lookup : String → Option String) : Option α :=
  (lookup (variablePrefix ++ f.variableName)).bind f.kind.readText

/-- The default. -/
def standard (f : Setting α) : α := f.get default

/-- Whether this is another value than the default. -/
def isOwn (f : Setting α) (x : α) : Bool := f.kind.differ x f.standard

theorem isOwn_standard (f : Setting α) : f.isOwn f.standard = false := by
  cases f <;> decide +kernel

/-! ## Layers -/

theorem get_fromLookup (f : Setting α) (lookup : String → Option String) :
    f.get (fromLookup lookup) = (f.fromVariable? lookup).getD f.standard := by
  have htext : ∀ (x : Option String) (d : String), x.getD d = (x.bind some).getD d :=
    fun x d => by rw [Option.bind_fun_some]
  have hword : ∀ {β : Type} (x : Option String) (size : Nat) (ofNat : Nat → β) (d : β),
      ((x.bind (readWhole size)).map ofNat).getD d
        = (x.bind fun s => (readWhole size s).map ofNat).getD d :=
    fun x size ofNat d => by rw [Option.map_bind]; rfl
  cases f with
  | identity => exact htext _ _
  | leaseName => exact htext _ _
  | leaseNamespace => exact htext _ _
  | jitterFactor => rfl
  | _ => exact hword _ _ _ _

theorem get_layer (f : Setting α) (a : CommandLine.Arguments) :
    f.get a.layer = (f.fromArguments? a).getD f.standard := by
  cases f <;> rfl

theorem get_merge (f : Setting α) (lower upper : Config) :
    f.get (lower.merge upper) = if f.isOwn (f.get upper) then f.get upper else f.get lower := by
  cases f <;> rfl

/-- A layer counts where it gives another value than the default. -/
theorem get_merge_of_getD (f : Setting α) {lower upper : Config} {given : Option α}
    (h : f.get upper = given.getD f.standard) :
    f.get (lower.merge upper) = (given.filter f.isOwn).getD (f.get lower) := by
  rw [get_merge, h]
  cases given with
  | none => rw [Option.getD_none, isOwn_standard]; rfl
  | some x =>
    rw [Option.getD_some, Option.filter_some]
    cases f.isOwn x <;> rfl

/-! ## Files -/

/-- The configuration with another value. -/
def set : Setting α → Config → α → Config
  | .identity, c, x => { c with identity := x }
  | .leaseName, c, x => { c with leaseName := x }
  | .leaseNamespace, c, x => { c with leaseNamespace := x }
  | .leaseDuration, c, x => { c with leaseDuration := x }
  | .renewInterval, c, x => { c with renewInterval := x }
  | .retryPeriod, c, x => { c with retryPeriod := x }
  | .jitterFactor, c, x => { c with jitterFactor := x }
  | .maxBackoff, c, x => { c with maxBackoff := x }
  | .workerCount, c, x => { c with workerCount := x }
  | .cacheSyncTimeout, c, x => { c with cacheSyncTimeout := x }
  | .requeueDelay, c, x => { c with requeueDelay := x }

theorem get_set (f : Setting α) (c : Config) (x : α) : f.get (f.set c x) = x := by
  cases f <;> rfl

theorem get_set_of_ne (f : Setting α) (g : Setting β) (c : Config) (x : β) (h : f.name ≠ g.name) :
    f.get (g.set c x) = f.get c := by
  cases f <;> cases g <;> first | rfl | exact absurd rfl h

/-- An item sets the setting of its name. -/
theorem setting_name (g : Setting β) (c : Config) (item : Toml.Item) :
    setting c g.name item = (do return g.set c (← g.kind.readItem item)) := by
  cases g <;> rfl

/-- An item of another name is ignored. -/
theorem setting_of_forall_ne {name : String} (h : ∀ (β : Type) (g : Setting β), g.name ≠ name)
    (c : Config) (item : Toml.Item) : setting c name item = .ok c := by
  unfold setting
  split
  · exact absurd rfl (h _ .identity)
  · exact absurd rfl (h _ .leaseName)
  · exact absurd rfl (h _ .leaseNamespace)
  · exact absurd rfl (h _ .leaseDuration)
  · exact absurd rfl (h _ .renewInterval)
  · exact absurd rfl (h _ .retryPeriod)
  · exact absurd rfl (h _ .jitterFactor)
  · exact absurd rfl (h _ .maxBackoff)
  · exact absurd rfl (h _ .workerCount)
  · exact absurd rfl (h _ .cacheSyncTimeout)
  · exact absurd rfl (h _ .requeueDelay)
  · rfl

theorem of_setting_name (g : Setting β) {c c' : Config} {item : Toml.Item}
    (h : setting c g.name item = .ok c') :
    ∃ x, g.kind.readItem item = .ok x ∧ c' = g.set c x := by
  rw [setting_name] at h
  cases hread : g.kind.readItem item with
  | error m =>
    rw [hread] at h
    contradiction
  | ok x =>
    rw [hread] at h
    exact ⟨x, rfl, (Except.ok.inj h).symm⟩

theorem readItem_of_setting (f : Setting α) {c c' : Config} {item : Toml.Item}
    (h : setting c f.name item = .ok c') : f.kind.readItem item = .ok (f.get c') := by
  obtain ⟨x, hread, rfl⟩ := f.of_setting_name h
  rw [get_set, hread]

/-- An item leaves the settings of other names as they are. -/
theorem get_of_setting (f : Setting α) {c c' : Config} {name : String} {item : Toml.Item}
    (hname : f.name ≠ name) (h : setting c name item = .ok c') : f.get c' = f.get c := by
  by_cases hknown : ∃ (β : Type) (g : Setting β), g.name = name
  · obtain ⟨β, g, rfl⟩ := hknown
    obtain ⟨x, -, rfl⟩ := g.of_setting_name h
    exact get_set_of_ne f g c x hname
  · rw [setting_of_forall_ne fun β g hg => hknown ⟨β, g, hg⟩] at h
    obtain rfl := Except.ok.inj h
    rfl

/-- **What the items of a file make of a setting**: the value of the one that has
its name. -/
theorem get_of_settings (f : Setting α) {c c' : Config} {ms : Toml.Members}
    (hnames : ms.names.Nodup)
    (h : ms.foldlM (fun c (name, item) => setting c name item) c = .ok c') :
    f.get c' = (f.fromFile? ms).getD (f.get c) := by
  induction ms generalizing c with
  | nil =>
    obtain rfl := Except.ok.inj h
    rfl
  | cons m ms ih =>
    obtain ⟨name, item⟩ := m
    obtain ⟨hfresh, hrest⟩ := List.nodup_cons.1 hnames
    simp only [List.foldlM_cons] at h
    cases hitem : setting c name item with
    | error mismatch =>
      rw [hitem] at h
      contradiction
    | ok next =>
      rw [hitem] at h
      have hget := ih hrest h
      unfold fromFile? at hget ⊢
      rw [Toml.Members.get?_cons]
      by_cases hname : f.name = name
      · subst hname
        have hnone : Toml.Members.get? ms f.name = none := by
          rw [← Option.not_isSome_iff_eq_none, Toml.Members.get?_isSome_iff]
          exact hfresh
        rw [hnone] at hget
        rw [if_pos rfl, Option.bind_some, f.readItem_of_setting hitem]
        exact hget
      · rw [if_neg hname, ← f.get_of_setting hname hitem]
        exact hget

end Setting

/-- The items of a file that can be read. -/
def Source.members (source : Source) : Toml.Members :=
  (source.content.toOption.bind Toml.parse).getD []

/-- What a text makes of a setting. -/
theorem Setting.get_of_ofToml {α : Type} (f : Setting α) {text : String} {ms : Toml.Members}
    {file : Config} (hparse : Toml.parse text = some ms) (h : ofToml text = .ok file) :
    f.get file = (f.fromFile? ms).getD f.standard := by
  unfold ofToml at h
  rw [hparse] at h
  dsimp only at h
  split at h
  · rename_i c hfold
    obtain rfl := Except.ok.inj h
    exact f.get_of_settings (Toml.names_nodup_of_parse hparse) hfold
  · contradiction

/-- **What a file makes of a setting.** -/
theorem Setting.get_of_fromFile {α : Type} (f : Setting α) {path : String} {source : Source}
    {file : Config} (h : fromFile path source = .ok file) :
    f.get file = (f.fromFile? source.members).getD f.standard := by
  unfold fromFile at h
  split at h
  · contradiction
  rename_i text hcontent
  split at h
  · contradiction
  rename_i c htoml
  obtain rfl := Except.ok.inj h
  unfold Source.members
  rw [hcontent]
  cases hparse : Toml.parse text with
  | none =>
    unfold ofToml at htoml
    rw [hparse] at htoml
    contradiction
  | some ms =>
    show _ = (f.fromFile? (((some text).bind Toml.parse).getD [])).getD f.standard
    rw [Option.bind_some, hparse]
    exact f.get_of_ofToml hparse htoml

end Tenure.Config

namespace Tenure.CommandLine

open Config (Setting)

/-- The items of the file that the arguments name, if they name one. -/
def Environment.items (e : Environment) (a : Arguments) : Toml.Members :=
  match a.config with
  | none => []
  | some path => (e.file path).members

/-- The file that the arguments name, if they name one, reads as a
configuration. -/
def Environment.Readable (e : Environment) (a : Arguments) : Prop :=
  ∀ path, a.config = some path → ∃ file, Config.fromFile path (e.file path) = .ok file

/-- The configuration of a run before it is judged. -/
def built (e : Environment) (a : Arguments) : Except Failure Config :=
  (layered e a).map fun c => c.withIdentity e.host e.mark

end Tenure.CommandLine

namespace Tenure.Config.Setting

open CommandLine

variable {α : Type}

/-- **The value that counts**: that of the arguments or else of the file, unless
it is the default, or else that of the variable, or else the default. -/
def chosen (f : Setting α) (e : Environment) (a : Arguments) : α :=
  (((f.fromArguments? a).filter f.isOwn).or
    (((f.fromFile? (e.items a)).filter f.isOwn).or (f.fromVariable? e.lookup))).getD f.standard

/-- **The value that was given**: that of the arguments, of the file or of the
variable, the first of them, or else the default. -/
def given (f : Setting α) (e : Environment) (a : Arguments) : α :=
  ((f.fromArguments? a).or ((f.fromFile? (e.items a)).or (f.fromVariable? e.lookup))).getD
    f.standard

/-- What stands for a value in the end: an identity is made up for an empty
one. -/
def settled (f : Setting α) (e : Environment) (x : α) : α :=
  match f, x with
  | .identity, x => if x.isEmpty then identityOf e.host e.mark else x
  | _, x => x

theorem get_withIdentity (f : Setting α) (e : Environment) (c : Config) :
    f.get (c.withIdentity e.host e.mark) = f.settled e (f.get c) := by
  unfold withIdentity
  cases f <;> split <;> simp_all [get, settled]

/-- What the layers of a run make of a setting. -/
theorem get_of_layered (f : Setting α) {e : Environment} {a : Arguments} {c : Config}
    (h : layered e a = .ok c) : f.get c = f.chosen e a := by
  have hlookup := f.get_fromLookup e.lookup
  have hlayer := f.get_layer a
  unfold layered at h
  unfold chosen Environment.items
  rw [Option.getD_or, Option.getD_or, ← hlookup]
  cases hconfig : a.config with
  | none =>
    rw [hconfig] at h
    obtain rfl := Except.ok.inj h
    rw [f.get_merge_of_getD hlayer]
    rfl
  | some path =>
    rw [hconfig] at h
    dsimp only at h
    split at h
    · rename_i file hfile
      obtain rfl := Except.ok.inj h
      rw [f.get_merge_of_getD hlayer, f.get_merge_of_getD (f.get_of_fromFile hfile)]
    · contradiction

/-- What counts is what was given, where no argument and no file repeats the
default. -/
theorem chosen_eq_given (f : Setting α) {e : Environment} {a : Arguments}
    (harguments : ∀ x, f.fromArguments? a = some x → f.isOwn x = true)
    (hfile : ∀ x, f.fromFile? (e.items a) = some x → f.isOwn x = true) :
    f.chosen e a = f.given e a := by
  have hkept : ∀ {o : Option α}, (∀ x, o = some x → f.isOwn x = true) → o.filter f.isOwn = o :=
    fun {o} h => by
      cases o with
      | none => rfl
      | some x => rw [Option.filter_some, if_pos (h x rfl)]
  unfold chosen given
  rw [hkept harguments, hkept hfile]

end Tenure.Config.Setting

namespace Tenure.CommandLine

open Config (Setting)

variable {e : Environment} {a : Arguments}

/-- A configuration is built if the file can be read. -/
theorem exists_built (h : e.Readable a) : ∃ c, built e a = .ok c := by
  unfold built layered
  cases hconfig : a.config with
  | none => exact ⟨_, rfl⟩
  | some path =>
    obtain ⟨file, hfile⟩ := h path hconfig
    simp only [hfile]
    exact ⟨_, rfl⟩

/-- Every setting of it has the value that counts. -/
theorem get_of_built {α : Type} (f : Setting α) {c : Config} (h : built e a = .ok c) :
    f.get c = f.settled e (f.chosen e a) := by
  unfold built at h
  cases hlayered : layered e a with
  | error failure =>
    rw [hlayered] at h
    contradiction
  | ok lower =>
    rw [hlayered] at h
    obtain rfl := Except.ok.inj h
    rw [f.get_withIdentity, f.get_of_layered hlayered]

/-- A run has the configuration that is built, or none. -/
theorem built_of_configure {c : Config} (h : configure e a = .ok c) : built e a = .ok c := by
  unfold configure at h
  unfold built
  cases hlayered : layered e a with
  | error failure =>
    rw [hlayered] at h
    contradiction
  | ok lower =>
    rw [hlayered] at h
    dsimp only [bind, Except.bind] at h
    split at h
    · exact h
    · contradiction

/-- **The configuration of a run.** It is built whenever the file can be read,
every setting has the value that counts, and the run has this configuration or
none. -/
theorem built_of_readable (h : e.Readable a) :
    ∃ c, built e a = .ok c ∧
      (∀ {α : Type} (f : Setting α), f.get c = f.settled e (f.chosen e a)) ∧
      ∀ c', configure e a = .ok c' → c' = c := by
  obtain ⟨c, hc⟩ := exists_built h
  refine ⟨c, hc, fun f => get_of_built f hc, fun c' hc' => ?_⟩
  exact Except.ok.inj ((built_of_configure hc').symm.trans hc)

/-- A variable asks for eight workers, and there is a file. -/
def eightWorkers (file : String) : Environment where
  lookup name := if name = "ASPEN_SINGLETON_WORKER_COUNT" then some "8" else none
  file _ := .text file
  host := "host"
  mark := "mark"

def withFile : Arguments := { config := some "config.toml" }

theorem eightWorkers_readable {file : String}
    (h : (Config.fromFile "config.toml" (.text file)).isOk = true) :
    (eightWorkers file).Readable withFile := by
  intro path hpath
  obtain rfl := Option.some.inj hpath
  show ∃ c, Config.fromFile "config.toml" (.text file) = .ok c
  cases hfile : Config.fromFile "config.toml" (.text file) with
  | error cause =>
    rw [hfile] at h
    contradiction
  | ok c => exact ⟨c, rfl⟩

/-- A file that asks for three workers gets them. -/
theorem three_workers_of_file : ∃ c, built (eightWorkers "worker_count = 3") withFile = .ok c ∧
    c.workerCount = 3 := by
  have hreadable : (eightWorkers "worker_count = 3").Readable withFile :=
    eightWorkers_readable (by decide +kernel)
  have hchosen : Setting.workerCount.chosen (eightWorkers "worker_count = 3") withFile = 3 := by
    decide +kernel
  obtain ⟨c, hbuilt, hget, -⟩ := built_of_readable hreadable
  have hworkers := hget .workerCount
  simp only [Setting.settled, hchosen] at hworkers
  exact ⟨c, hbuilt, hworkers⟩

/-- That whatever is given counts. -/
def GivenCounts : Prop :=
  ∀ {e : Environment} {a : Arguments} {c : Config}, e.Readable a → built e a = .ok c →
    ∀ {α : Type} (f : Setting α), f.get c = f.settled e (f.given e a)

/-- It does not: a file that asks for two workers, the usual number, leaves it at
the eight of the variable. -/
theorem not_givenCounts : ¬ GivenCounts := by
  intro h
  have hreadable : (eightWorkers "worker_count = 2").Readable withFile :=
    eightWorkers_readable (by decide +kernel)
  have hgiven : Setting.workerCount.given (eightWorkers "worker_count = 2") withFile = 2 := by
    decide +kernel
  have hchosen : Setting.workerCount.chosen (eightWorkers "worker_count = 2") withFile = 8 := by
    decide +kernel
  obtain ⟨c, hbuilt⟩ := exists_built hreadable
  have hmeant := h hreadable hbuilt .workerCount
  have hreal := get_of_built .workerCount hbuilt
  simp only [Setting.settled, hgiven] at hmeant
  simp only [Setting.settled, hchosen] at hreal
  have hdiffers : (2 : UInt32) ≠ 8 := by decide
  exact hdiffers (hmeant.symm.trans hreal)

end Tenure.CommandLine
