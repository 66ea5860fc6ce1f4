import HeaderKeys.Path
import HeaderKeys.Scanner
import HeaderKeys.Text.Terminal

/-! What a run logs. Every event is always made, in the order in which things happen;
how verbose a run is decides only which of them are shown. Time stamps and colours are
left out, and the environment variable that could filter the log is taken as unset. -/

namespace HeaderKeys

/-- How much an event matters, least first. -/
inductive Level
  | trace
  | debug
  | info
  | warn
deriving DecidableEq, Repr

namespace Level

def weight : Level → Nat
  | trace => 0
  | debug => 1
  | info => 2
  | warn => 3

def name : Level → Text
  | trace => "TRACE".toList
  | debug => "DEBUG".toList
  | info => "INFO".toList
  | warn => "WARN".toList

/-- The least level shown when more output was asked for `verbosity` times. -/
def threshold : Nat → Level
  | 0 => warn
  | 1 => info
  | 2 => debug
  | _ => trace

end Level

inductive Event
  | reading (path : Path)
  | opened (key : KeyName)
  /-- A block was closed; its size is that of its bytes in the header. -/
  | captured (key : KeyName) (bytes : Nat)
  | replaced (key : KeyName)
  | neverClosed (path : Path) (key : KeyName)
  | scanned (path : Path) (found : List KeyName)
  | counted (path : Path) (found : Nat)
  | collected (names : List KeyName)
  | emitting (key : KeyName)
  | wrote (path : Path) (bytes : Nat)
  | warning (text : Text)
deriving DecidableEq, Repr

namespace Event

def level : Event → Level
  | reading _ => .trace
  | opened _ => .trace
  | captured _ _ => .debug
  | replaced _ => .debug
  | neverClosed _ _ => .warn
  | scanned _ _ => .debug
  | counted _ _ => .info
  | collected _ => .debug
  | emitting _ => .debug
  | wrote _ _ => .info
  | warning _ => .warn

def labels (keys : List KeyName) : Text := Text.bracketed (keys.map KeyName.label)

def message : Event → Text
  | reading path => "Reading ".toList ++ path.display
  | opened key => "Found declaration of ".toList ++ key.identifier
  | captured key bytes =>
    "Captured ".toList ++ key.identifier ++ " (".toList ++ Text.ofNat bytes ++ " bytes of initializer)".toList
  | replaced key => "Replacing earlier declaration of ".toList ++ key.identifier
  | neverClosed path key =>
    path.display ++ ": ".toList ++ key.identifier ++ " is never closed with ".toList
      ++ closingMark.quoted ++ ", ignoring it".toList
  | scanned path found => "Scan of ".toList ++ path.display ++ " complete: found ".toList ++ labels found
  | counted path found => path.display ++ ": ".toList ++ Text.ofNat found ++ " key(s) found".toList
  | collected names => "Collected keys: ".toList ++ labels names
  | emitting key => "Emitting declaration ".toList ++ key.identifier
  | wrote path bytes => "Wrote ".toList ++ path.display ++ " (".toList ++ Text.ofNat bytes ++ " bytes)".toList
  | warning text => text

def line (event : Event) : Text := event.level.name ++ " ".toList ++ Terminal.spelled event.message

/-- The events that a run with this verbosity shows. -/
def shown (verbosity : Nat) (events : List Event) : List Event :=
  events.filter fun event => (Level.threshold verbosity).weight ≤ event.level.weight

end Event

/-- What a finding logs when it is recorded in `table`. -/
def KeyTable.eventsOf (table : KeyTable) : Finding → List Event
  | .opened key => [.opened key]
  | .closed key block =>
    .captured key (Utf8.encode block).length :: if (table.get? key).isSome then [.replaced key] else []

def KeyTable.eventsOfAll (table : KeyTable) : List Finding → List Event
  | [] => []
  | finding :: later => table.eventsOf finding ++ (table.record finding).eventsOfAll later

end HeaderKeys
