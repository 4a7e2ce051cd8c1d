set_option autoImplicit false

namespace Deferred

structure SubstituteConfig where
  /-- The deepest expression that is walked. -/
  maxDepth : UInt64
  /-- Substitution in the global environment changes nothing. -/
  globalAsNothing : Bool
  deriving DecidableEq, Repr

structure Config where
  substitute : SubstituteConfig
  deriving DecidableEq, Repr

def SubstituteConfig.standard : SubstituteConfig := ⟨5000, true⟩

def Config.standard : Config := ⟨.standard⟩

inductive ConfigFault where
  | unreadable (path reason : String)
  /-- The format says why a text is no document of a configuration. -/
  | malformed (reason : String)
  | invalidValue (field reason : String)
  deriving DecidableEq, Repr

def ConfigFault.message : ConfigFault → String
  | unreadable path reason => "Failed to read config file '" ++ path ++ "': " ++ reason
  | malformed reason => "Failed to parse config: " ++ reason
  | invalidValue field reason => "Invalid value for field '" ++ field ++ "': " ++ reason

def ConfigFault.faultMessage (e : ConfigFault) : String := "Configuration error: " ++ e.message

/-- Nothing could be walked if not even one level were allowed. -/
def Config.validate (c : Config) : Except ConfigFault Config :=
  if c.substitute.maxDepth = 0 then
    .error (.invalidValue "substitute.max_depth" "must be at least 1")
  else .ok c

theorem Config.validate_eq_ok_iff (c d : Config) :
    c.validate = .ok d ↔ c = d ∧ c.substitute.maxDepth ≠ 0 := by
  by_cases h : c.substitute.maxDepth = 0 <;> simp [Config.validate, h]

end Deferred
