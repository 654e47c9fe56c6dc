import GraphScript.Json.Token

/-!
# Json.Draft — a JSON text as far as it can be read

- `Draft.parse` turns any text into a `Draft`. A fault does not end the reading: it is recorded
  where it stands, as a `broken` value or as a container that is not `closed`.
- So a reader that walks a draft in text order meets the first problem first, be it a fault of the
  text or a value that does not fit.
- `Draft.sorted?` is the document that the text denotes: it exists where nothing is at fault, and
  its objects are sorted by key, the last of equal keys winning.
-/

namespace GraphScript.Json

/-- A JSON value, possibly with faults inside. -/
inductive Draft where
  | null
  | bool (b : Bool)
  | number (n : Option Number)
  | text (s : Option String)
  | array (items : List Draft) (closed : Bool)
  | object (entries : List (Draft × Draft)) (closed : Bool)
  | broken
  deriving Inhabited

namespace Draft

/-! ## From tokens -/

/-- A container that is being read, with the part before the current value, last item first. -/
inductive Frame where
  | array (items : List Draft)
  | object (entries : List (Draft × Draft)) (k : Draft)

/-- What may come next. -/
inductive Need where
  /-- A value must come. -/
  | value (frames : List Frame)
  /-- An array was opened: a value or its end. -/
  | first (frames : List Frame)
  /-- A key, or, where `mayEnd`, the end of the object. -/
  | key (frames : List Frame) (before : List (Draft × Draft)) (mayEnd : Bool)
  | colon (frames : List Frame) (before : List (Draft × Draft)) (k : Draft)
  /-- A value was read: a comma or the end of its container. -/
  | after (frame : Frame) (frames : List Frame) (last : Draft)
  /-- The outermost value was read. -/
  | complete (d : Draft)
  /-- A fault was met; this is what was read before it. -/
  | failed (d : Draft)

def Frame.close (closed : Bool) : Frame → Draft → Draft
  | .array items, d => .array (d :: items).reverse closed
  | .object entries k, d => .object ((k, d) :: entries).reverse closed

/-- Put a value, the last one before a fault, into all open containers. -/
def unwind (d : Draft) (frames : List Frame) : Draft :=
  frames.foldl (fun d f => f.close false d) d

def Need.finished (d : Draft) : List Frame → Need
  | [] => .complete d
  | f :: fs => .after f fs d

/-- What was read when no further token fits. -/
def Need.draft : Need → Draft
  | .value fs => unwind .broken fs
  | .first fs => unwind (.array [] false) fs
  | .key fs before _ => unwind (.object before.reverse false) fs
  | .colon fs before k => unwind (.object ((k, .broken) :: before).reverse false) fs
  | .after f fs d => unwind (f.close false d) fs
  | .complete d => d
  | .failed d => d

def Need.start (frames : List Frame) : Token → Option Need
  | .null => some (.finished .null frames)
  | .bool b => some (.finished (.bool b) frames)
  | .number n => some (.finished (.number n) frames)
  | .text s => some (.finished (.text s) frames)
  | .openArray => some (.first frames)
  | .openObject => some (.key frames [] true)
  | _ => none

/-- A value in the place of a key, of which only the kind is known. -/
def strayKey : Token → Option Draft
  | .null => some .null
  | .bool b => some (.bool b)
  | .number n => some (.number n)
  | .openArray => some (.array [] false)
  | .openObject => some (.object [] false)
  | _ => none

def Need.next (need : Need) (t : Token) : Need :=
  match need, t with
  | .value fs, t => (start fs t).getD (.failed need.draft)
  | .first fs, .closeArray => finished (.array [] true) fs
  | .first fs, t => (start (.array [] :: fs) t).getD (.failed need.draft)
  | .key fs before mayEnd, .closeObject =>
    if mayEnd then finished (.object before.reverse true) fs else .failed need.draft
  | .key fs before _, .text s => .colon fs before (.text s)
  | .key fs before _, t =>
    match strayKey t with
    | some k => .failed (unwind (.object ((k, .broken) :: before).reverse false) fs)
    | none => .failed need.draft
  | .colon fs before k, .colon => .value (.object before k :: fs)
  | .after (.array items) fs d, .comma => .value (.array (d :: items) :: fs)
  | .after (.array items) fs d, .closeArray => finished (Frame.close true (.array items) d) fs
  | .after (.object before k) fs d, .comma => .key fs ((k, d) :: before) false
  | .after (.object before k) fs d, .closeObject =>
    finished (Frame.close true (.object before k) d) fs
  | .failed d, _ => .failed d
  | need, _ => .failed need.draft

/-- A text as far as it can be read, and whether it ends where its value ends. -/
def parse (text : String) : Draft × Bool :=
  match (tokens text).foldl Need.next (.value []) with
  | .complete d => (d, true)
  | need => (need.draft, false)

/-! ## Sound drafts -/

/-- The number of containers that may stand inside each other. -/
def maxDepth : Nat := 127

/-- Insert under a key, keeping the keys sorted; an entry with the same key is replaced. -/
def insertSorted (key : String) (d : Draft) : List (Draft × Draft) → List (Draft × Draft)
  | [] => [(.text (some key), d)]
  | (.text (some k), e) :: rest =>
    if key < k then (.text (some key), d) :: (.text (some k), e) :: rest
    else if key = k then (.text (some key), d) :: rest
    else (.text (some k), e) :: insertSorted key d rest
  | e :: rest => e :: insertSorted key d rest

mutual

/-- The document that a draft denotes, with sorted objects, where it has no fault and at most
`depth` containers stand inside each other. -/
def sorted? (depth : Nat) : Draft → Option Draft
  | .null => some .null
  | .bool b => some (.bool b)
  | .number (some n) => some (.number (some n))
  | .text (some s) => some (.text (some s))
  | .array items true =>
    if depth = 0 then none else (sortedItems? (depth - 1) items).map (.array · true)
  | .object entries true =>
    if depth = 0 then none else (sortedEntries? (depth - 1) [] entries).map (.object · true)
  | _ => none

def sortedItems? (depth : Nat) : List Draft → Option (List Draft)
  | [] => some []
  | d :: ds => do
    let d ← sorted? depth d
    let ds ← sortedItems? depth ds
    some (d :: ds)

def sortedEntries? (depth : Nat) (before : List (Draft × Draft)) :
    List (Draft × Draft) → Option (List (Draft × Draft))
  | [] => some before
  | (.text (some key), d) :: rest => do
    let d ← sorted? depth d
    sortedEntries? depth (insertSorted key d before) rest
  | _ => none

end

/-- Is the text a value without fault, with at most `depth` containers inside each other? -/
def isSound (depth : Nat) (d : Draft) : Bool := (d.sorted? depth).isSome

mutual

/-- Can the value be passed over? Its content does not matter, only its structure. -/
def isPassable : Draft → Bool
  | .broken => false
  | .array items closed => closed && allPassable items
  | .object entries closed => closed && allEntriesPassable entries
  | _ => true

def allPassable : List Draft → Bool
  | [] => true
  | d :: ds => isPassable d && allPassable ds

def allEntriesPassable : List (Draft × Draft) → Bool
  | [] => true
  | (.text _, d) :: rest => isPassable d && allEntriesPassable rest
  | _ => false

end

end Draft

end GraphScript.Json
