import KernelQ.Foundation.Programs
import KernelQ.Worker.GoText

/-!
# Fault injection

`faults/config.go`: the configuration from the environment, the injector that it makes, and a
call of `Inject`, whose operations are its locked section, the call of the observer, and the
wait of a delay. Enabled is what is enabled in an environment that says that it is no
production (`explicit_of_enabled`).
-/

namespace KernelQ.Worker.Faults

open KernelQ.Foundation

/-- A named injection site. -/
abbrev Point := GoText

/-- How a fault manifests. -/
abbrev Mode := GoText

def pointBeforeClaim : Point := GoText.ofString "before_claim"

def pointAfterClaim : Point := GoText.ofString "after_claim"

def pointBeforeExecute : Point := GoText.ofString "before_execute"

def pointAfterExecute : Point := GoText.ofString "after_execute"

def pointBeforeResultPublish : Point := GoText.ofString "before_result_publish"

def pointAfterResultPublish : Point := GoText.ofString "after_result_publish"

def modeError : Mode := GoText.ofString "error"

def modeDelay : Mode := GoText.ofString "delay"

def modePanic : Mode := GoText.ofString "panic"

def validPoint (p : Point) : Bool :=
  decide (p ∈ [pointBeforeClaim, pointAfterClaim, pointBeforeExecute, pointAfterExecute,
    pointBeforeResultPublish, pointAfterResultPublish])

def validMode (m : Mode) : Bool := decide (m ∈ [modeError, modeDelay, modePanic])

/-- The delay counts nanoseconds. -/
structure Config where
  enabled : Bool := false
  point : Point := []
  mode : Mode := []
  count : ℤ := 0
  delay : Int64 := 0
  envName : GoText := []

/-! ## The environment -/

inductive ConfigError
  | enabled (got : GoText)
  | production (env : GoText)
  | notExplicit (env : GoText)
  | pointRequired
  | point (got : Point)
  | mode (got : Mode)
  | count (got : GoText)
  | delay (got : GoText)

/-- The text of the error, given `%q`. -/
def ConfigError.text (quote : GoText → String) : ConfigError → String
  | enabled got => "KERNELQ_FAULTS_ENABLED must be true or false, got " ++ quote got
  | production env =>
      "fault injection rejected: KERNELQ_ENVIRONMENT=" ++ quote env ++ " is production"
  | notExplicit env =>
      "fault injection rejected: KERNELQ_ENVIRONMENT=" ++ quote env ++
        " is not an explicit non-production value (local|test|dev|development)"
  | pointRequired => "KERNELQ_FAULT_POINT is required when faults are enabled"
  | point got => "unsupported KERNELQ_FAULT_POINT " ++ quote got
  | mode got => "unsupported KERNELQ_FAULT_MODE " ++ quote got
  | count got => "KERNELQ_FAULT_COUNT must be >= 0, got " ++ quote got
  | delay got => "KERNELQ_FAULT_DELAY_MS must be >= 0, got " ++ quote got

def nonProductionNames : List GoText := ["local", "test", "dev", "development"].map GoText.ofString

section

variable (U : UnicodeTables) (getenv : String → GoText)

def isProductionEnvironment (env : GoText) : Bool :=
  decide (GoText.toLower U (GoText.trimSpace env) ∈
    ["production", "prod", "prd"].map GoText.ofString)

def isExplicitNonProduction (env : GoText) : Bool :=
  decide (GoText.toLower U (GoText.trimSpace env) ∈ nonProductionNames)

/-- A number that is not negative; a variable that is blank leaves the default. -/
def nonNegative (raw : GoText) (default : ℤ) : Option ℤ :=
  if raw = [] then some default else (GoText.atoi raw).filter fun n => decide (0 ≤ n)

/-- `time.Duration(ms) * time.Millisecond`, which may overflow; a delay of nothing is one of 100
milliseconds. -/
def delayOf (mode : Mode) (ms : ℤ) : Int64 :=
  let delay := Int64.ofInt ms * 1000000
  if mode = modeDelay ∧ delay ≤ 0 then 100 * 1000000 else delay

/-- The part of `LoadConfig` behind the checks of the environment. -/
def loadFault (cfg : Config) : Except ConfigError Config :=
  let point := GoText.trimSpace (getenv "KERNELQ_FAULT_POINT")
  let rawMode := GoText.trimSpace (getenv "KERNELQ_FAULT_MODE")
  let mode := GoText.toLower U (if rawMode = [] then modeError else rawMode)
  let rawCount := GoText.trimSpace (getenv "KERNELQ_FAULT_COUNT")
  let rawDelay := GoText.trimSpace (getenv "KERNELQ_FAULT_DELAY_MS")
  if point = [] then .error .pointRequired
  else if !validPoint point then .error (.point point)
  else if !validMode mode then .error (.mode mode)
  else
    match nonNegative rawCount cfg.count, nonNegative rawDelay 0 with
    | none, _ => .error (.count rawCount)
    | some _, none => .error (.delay rawDelay)
    | some count, some ms =>
        .ok { cfg with enabled := true, point, mode, count, delay := delayOf mode ms }

def loadConfig : Except ConfigError Config :=
  let env := GoText.trimSpace (getenv "KERNELQ_ENVIRONMENT")
  let cfg : Config :=
    { count := 1
      mode := modeError
      envName := if env = [] then GoText.ofString "local" else env }
  let rawEnabled := GoText.trimSpace (getenv "KERNELQ_FAULTS_ENABLED")
  if rawEnabled = [] ∨ GoText.equalFold U rawEnabled (GoText.ofString "false") = true ∨
      rawEnabled = GoText.ofString "0" then
    .ok cfg
  else if GoText.equalFold U rawEnabled (GoText.ofString "true") = false ∧
      rawEnabled ≠ GoText.ofString "1" then
    .error (.enabled rawEnabled)
  else if isProductionEnvironment U cfg.envName then .error (.production cfg.envName)
  else if !isExplicitNonProduction U cfg.envName then .error (.notExplicit cfg.envName)
  else loadFault U getenv cfg

end

variable {U : UnicodeTables} {getenv : String → GoText} {cfg : Config}

/-- **What is enabled** is enabled in an environment that is called none, or one of the explicit
names. -/
theorem explicit_of_enabled (h : loadConfig U getenv = .ok cfg) (henabled : cfg.enabled = true) :
    GoText.toLower U (GoText.trimSpace (getenv "KERNELQ_ENVIRONMENT")) = [] ∨
      GoText.toLower U (GoText.trimSpace (getenv "KERNELQ_ENVIRONMENT")) ∈
        nonProductionNames := by
  obtain ⟨env, henv⟩ : ∃ env, GoText.trimSpace (getenv "KERNELQ_ENVIRONMENT") = env := ⟨_, rfl⟩
  have htrim : GoText.trimSpace env = env := by rw [← henv, GoText.trimSpace_trimSpace]
  obtain ⟨name, hname⟩ : ∃ name, (if env = [] then GoText.ofString "local" else env) = name :=
    ⟨_, rfl⟩
  simp only [loadConfig, henv, hname] at h
  split at h
  · cases h
    cases henabled
  split at h
  · cases h
  split at h
  · cases h
  split at h
  · cases h
  · rename_i hexplicit
    by_cases hempty : env = []
    · left
      rw [henv, hempty]
      rfl
    · right
      rw [if_neg hempty] at hname
      rw [← hname, isExplicitNonProduction, htrim] at hexplicit
      rw [henv]
      simpa using hexplicit

/-! ## The injector -/

/-- Whoever observes is an element of `Ω`. -/
structure ConfigurableInjector (Ω : Type) where
  point : Point
  mode : Mode
  count : ℤ
  delay : Int64
  observer : Option Ω := none

/-- What `New` returns; a pointer to an injector may be nil. -/
inductive Injector (Ω : Type)
  | noop
  | configurable (inj : Option (ConfigurableInjector Ω))

/-- `WithObserver(obs)`, the only kind of option. -/
structure InjectorOption (Ω : Type) where
  observer : Option Ω

inductive NewError
  | point (got : Point)
  | mode (got : Mode)
  | count

def NewError.text (quote : GoText → String) : NewError → String
  | point got => "unsupported fault point " ++ quote got
  | mode got => "unsupported fault mode " ++ quote got
  | count => "fault count must be >= 0"

def Config.validateEnabled (cfg : Config) : Except NewError Unit :=
  if !validPoint cfg.point then .error (.point cfg.point)
  else if !validMode cfg.mode then .error (.mode cfg.mode)
  else if cfg.count < 0 then .error .count
  else .ok ()

section

variable {Ω : Type}

def InjectorOption.apply (opt : InjectorOption Ω) (inj : ConfigurableInjector Ω) :
    ConfigurableInjector Ω :=
  { inj with observer := opt.observer }

/-- `New`. -/
def newInjector (cfg : Config) (opts : List (InjectorOption Ω)) : Except NewError (Injector Ω) :=
  if !cfg.enabled then .ok .noop
  else
    match cfg.validateEnabled with
    | .error e => .error e
    | .ok () =>
        let inj : ConfigurableInjector Ω :=
          { point := cfg.point, mode := cfg.mode, count := cfg.count, delay := cfg.delay }
        .ok (.configurable (some (opts.foldl (fun inj opt => opt.apply inj) inj)))

end

/-! ## A call of `Inject` -/

/-- What the locked section takes out of the injector. -/
structure Fault (Ω : Type) where
  remaining : ℤ
  mode : Mode
  delay : Int64
  observer : Option Ω

inductive FaultOp (Ω : Type)
  /-- The locked section. -/
  | take (point : Point)
  | onInject (observer : Ω) (point : Point) (mode : Mode) (remaining : ℤ)
  /-- The wait for the timer or the context. -/
  | wait (delay : Int64)

/-- What is answered: the fault, if there is one, and the error of the context, if it is done
before the timer. -/
abbrev FaultOp.Ans {Ω : Type} : FaultOp Ω → Type
  | take _ => Option (Fault Ω)
  | onInject _ _ _ _ => Unit
  | wait _ => Option String

inductive InjectError
  /-- It wraps `ErrInjected`. -/
  | injected (point : Point)
  | context (err : String)

def InjectError.text : InjectError → GoText
  | injected point => GoText.ofString "kernelq: injected test fault at " ++ point
  | context err => GoText.ofString err

inductive InjectResult
  | returned (err : Option InjectError)
  | panicked (message : GoText)

abbrev InjectProgram (Ω : Type) := Prog (FaultOp.Ans (Ω := Ω)) InjectResult

namespace ConfigurableInjector

variable {Ω : Type}

/-- The locked section of `Inject`. -/
def take (inj : ConfigurableInjector Ω) (point : Point) :
    ConfigurableInjector Ω × Option (Fault Ω) :=
  if point ≠ inj.point ∨ inj.count ≤ 0 then (inj, none)
  else
    ({ inj with count := inj.count - 1 },
      some { remaining := inj.count - 1, mode := inj.mode, delay := inj.delay,
             observer := inj.observer })

/-- The fault, behind the call of the observer. -/
def manifest (point : Point) (fault : Fault Ω) : InjectProgram Ω :=
  if fault.mode = modeDelay then
    .op (.wait fault.delay) fun err => .ret (.returned (err.map .context))
  else if fault.mode = modePanic then
    .ret (.panicked (GoText.ofString "kernelq injected panic at " ++ point))
  else .ret (.returned (some (.injected point)))

/-- `Inject`; `none` is the nil pointer. -/
def inject (inj : Option (ConfigurableInjector Ω)) (point : Point) : InjectProgram Ω :=
  if inj.isNone then .ret (.returned none)
  else
    .op (.take point) fun
      | none => .ret (.returned none)
      | some fault =>
          match fault.observer with
          | some observer =>
              .op (.onInject observer point fault.mode fault.remaining) fun _ =>
                manifest point fault
          | none => manifest point fault

/-- `Remaining`. -/
def remaining (inj : ConfigurableInjector Ω) : ℤ := inj.count

end ConfigurableInjector

def Injector.inject {Ω : Type} : Injector Ω → Point → InjectProgram Ω
  | .noop, _ => .ret (.returned none)
  | .configurable inj, point => ConfigurableInjector.inject inj point

end KernelQ.Worker.Faults
