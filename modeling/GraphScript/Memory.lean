/-!
# Memory — what a node remembers between its runs

- A `Slot` is empty or holds one memory. The kind of the node decides what it keeps there.
- `Stored α` says how an `α` is kept; reading a slot as another type finds nothing.
-/

namespace GraphScript

/-- What a slot can hold. -/
inductive Memory where
  /-- A node that fires once: has it run? -/
  | started (hasRun : Bool)
  /-- A timer: the time of its last tick. -/
  | ticked (last : Float)
  /-- A node that counts its calls. -/
  | calls (n : Nat)
  | integer (n : Int)
  | text (s : String)
  | integers (ns : List Int)
  deriving DecidableEq

structure Started where
  hasRun : Bool := false
  deriving DecidableEq, Inhabited

structure Ticked where
  last : Float := 0
  deriving DecidableEq

instance : Inhabited Ticked := ⟨{}⟩

structure Calls where
  count : Nat := 0
  deriving DecidableEq, Inhabited

/-- Types that a slot can hold. -/
class Stored (α : Type) extends Inhabited α where
  /-- The name in messages. -/
  typeName : String
  wrap : α → Memory
  unwrap? : Memory → Option α
  unwrap?_wrap : ∀ a, unwrap? (wrap a) = some a

instance : Stored Started where
  typeName := "nodeplay_nodes::events::OnStartState"
  wrap s := .started s.hasRun
  unwrap? | .started hasRun => some ⟨hasRun⟩ | _ => none
  unwrap?_wrap _ := rfl

instance : Stored Ticked where
  typeName := "nodeplay_nodes::events::EveryState"
  wrap s := .ticked s.last
  unwrap? | .ticked last => some ⟨last⟩ | _ => none
  unwrap?_wrap _ := rfl

instance : Stored Calls where
  typeName := "calls"
  wrap s := .calls s.count
  unwrap? | .calls n => some ⟨n⟩ | _ => none
  unwrap?_wrap _ := rfl

instance : Stored Int where
  default := 0
  typeName := "integer"
  wrap := .integer
  unwrap? | .integer n => some n | _ => none
  unwrap?_wrap _ := rfl

instance : Stored String where
  default := ""
  typeName := "text"
  wrap := .text
  unwrap? | .text s => some s | _ => none
  unwrap?_wrap _ := rfl

instance : Stored (List Int) where
  default := []
  typeName := "integers"
  wrap := .integers
  unwrap? | .integers ns => some ns | _ => none
  unwrap?_wrap _ := rfl

abbrev Slot := Option Memory

namespace Slot

def isEmpty (s : Slot) : Bool := s.isNone

variable {α : Type} [Stored α]

/-- The memory, where it is of the wanted type. -/
def get? (s : Slot) : Option α := s.bind Stored.unwrap?

def set (a : α) : Slot := some (Stored.wrap a)

def modify (s : Slot) (f : α → α) : Slot :=
  match (s.get? : Option α) with
  | some a => set (f a)
  | none => s

/-- The memory of the wanted type, or else its initial value; and whether another one was there. -/
def getOrDefault (s : Slot) : α × Bool :=
  match (s.get? : Option α) with
  | some a => (a, false)
  | none => (default, s.isSome)

def take (s : Slot) : Option α × Slot :=
  match (s.get? : Option α) with
  | some a => (some a, none)
  | none => (none, s)

@[simp] theorem get?_set (a : α) : get? (set a) = some a := by
  simp [get?, set, Stored.unwrap?_wrap]

end Slot

end GraphScript
