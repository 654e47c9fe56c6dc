import GraphScript.Inspect
import GraphScript.Player

/-!
# CommandLine — the player as a program

- `CommandLine.run` takes the arguments to the lines of a log, a message for the user and an exit
  code.
- `LogFilter` says which lines of the log are shown.
-/

namespace GraphScript

/-! ## Filters -/

/-- What a filter says about one part of the program: the least level shown, or nothing at all. -/
structure Directive where
  /-- The start of the names of the parts that are meant. -/
  target : String
  least : Option Level

structure LogFilter where
  directives : List Directive

namespace LogFilter

/-- The least level that a word names; `off` names none. -/
def level? (word : String) : Option (Option Level) :=
  match word.toLower with
  | "off" => some none
  | "error" => some (some .error)
  | "warn" => some (some .warn)
  | "info" => some (some .info)
  | "debug" => some (some .debug)
  | "trace" => some (some .trace)
  | _ => none

/-- Read one directive: a level for all parts, or a part with a level. -/
def directive? (text : String) : Option Directive :=
  match text.splitOn "=" with
  | [word] =>
    match level? word with
    | some least => some ⟨"", least⟩
    | none => some ⟨word, some .trace⟩
  | [target, word] => (level? word).map (⟨target, ·⟩)
  | _ => none

/-- Read a filter: directives with commas between them. What cannot be read is left out. -/
def ofText (text : String) : LogFilter :=
  ⟨((text.splitOn ",").filter (· ≠ "")).filterMap directive?⟩

/-- The directive that names the part most exactly. -/
def directiveFor (f : LogFilter) (target : String) : Option Directive :=
  f.directives.foldl (fun best d =>
    if target.startsWith d.target then
      match best with
      | none => some d
      | some b => if b.target.length ≤ d.target.length then some d else best
    else best) none

/-- Is a line of the given part and level shown? A filter without directives shows errors. -/
def shows (f : LogFilter) (target : String) (level : Level) : Bool :=
  if f.directives.isEmpty then level = .error
  else
    match f.directiveFor target with
    | some ⟨_, some least⟩ => least.rank ≤ level.rank
    | _ => false

end LogFilter

/-! ## The program -/

namespace CommandLine

/-- The name of the program in filters. -/
def target : String := "nodeplay_player"

def version : String := "0.1.0"

def usage : String := "Usage: nodeplay_player <config.ron | graph.json>\n"

structure Line where
  level : Level
  message : String

structure Report where
  exitCode : Nat
  /-- The message on the error stream. -/
  complaint : String := ""
  lines : List Line := []

/-- Characters that could command a terminal are shown by their codes. -/
def sanitize (c : Char) : String :=
  match c with
  | '\x07' => "\\x07"
  | '\x08' => "\\x08"
  | '\x0c' => "\\x0c"
  | '\x1b' => "\\x1b"
  | '\x7f' => "\\x7f"
  | c =>
    if 0x80 ≤ c.toNat ∧ c.toNat ≤ 0x9f then "\\u\x7b" ++ Quoted.hex c.toNat ++ "\x7d"
    else c.toString

def Line.sanitized (l : Line) : Line :=
  { l with message := String.join (l.message.toList.map sanitize) }

def Report.filtered (r : Report) (f : LogFilter) : Report :=
  { r with lines := (r.lines.filter fun l => f.shows target l.level).map Line.sanitized }

def summary (c : PlayConfig) (s : Session HeadlessScene) : List Line :=
  let w := s.world
  [⟨.info, "Finished after " ++ toString c.frames ++ " frames, " ++ toString s.restarts
      ++ " restarts"⟩,
   ⟨.info, "Entities (" ++ toString w.entities.size ++ "): "
      ++ Inspect.list (w.entities.keys.map Quoted.inspect)⟩]
    ++ w.vars.entries.map fun (name, value) => ⟨.info, "  " ++ name ++ " = " ++ value.display⟩

/-- Run the program. `filter` is the filter that the environment sets. -/
def run {m : Type → Type} [Monad m] (store : Store m) (supply : IdSupply) (filter : Option String)
    (args : List String) : m Report := do
  match args with
  | [] => pure { exitCode := 2, complaint := usage }
  | path :: _ =>
    match ← PlayConfig.load store path with
    | .error e =>
      let report : Report :=
        { exitCode := 1, lines := [⟨.error, "Failed to load " ++ path ++ ": " ++ e.placedMessage⟩] }
      pure (report.filtered (.ofText (filter.getD defaultLogFilter)))
    | .ok c =>
      let started : Line := ⟨.info, "Starting NodePlay player v" ++ version⟩
      let report : Report ← do
        match ← Player.run store supply c with
        | .error e =>
          pure { exitCode := 1,
                 lines := [started,
                   ⟨.error, "Failed to run " ++ c.graph ++ ": " ++ e.placedMessage⟩] }
        | .ok (s, _) => pure { exitCode := 0, lines := started :: summary c s }
      pure (report.filtered (.ofText (filter.getD c.logFilter)))

end CommandLine

end GraphScript
