/-! # Log lines -/

namespace ContractBindings

inductive Level where
  | info
  | success
  | warning
  | error
deriving DecidableEq, Repr

namespace Level

def colour : Level → String
  | info => "blue"
  | success => "green"
  | warning => "dark_orange"
  | error => "red"

def sign : Level → String
  | info => ""
  | success => "✅ "
  | warning => "⚠\uFE0F "
  | error => "❌ "

end Level

structure LogLine where
  level : Level
  message : String
deriving DecidableEq, Repr

def LogLine.text (l : LogLine) : String := l.level.sign ++ l.message

end ContractBindings
