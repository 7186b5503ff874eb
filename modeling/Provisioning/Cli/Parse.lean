import Provisioning.Cli.Failure
import Provisioning.Text.Similarity
/-!
Reading a command line.

The words are read from left to right against the built command:

* a word naming a subcommand, read before any value of a positional that
  collects values, hands the rest of the line to that subcommand (`help`
  instead shows the help of the command its following words name);
* `--` makes every later word a value;
* `--name` or `--name=value` is an option or switch by its long name, and
  `-abc` a cluster of short names, where the first name that takes a value
  takes the rest of the cluster (after an optional `=`), or else the next
  word;
* any other word is the value of the option waiting for one, or else of the
  next positional.

A value is checked when the next argument is read (or the line ends), not
when it is read itself; so a refused value is reported only if nothing
after it is refused first. An argument that is not given falls back on its
environment variable. Then the command checks that a subcommand was given
where one is required (with no arguments at all it shows its help
instead), that no two given arguments conflict, and that every required
argument is present; a subcommand is checked before its parent.

Global arguments given at several levels end with the deepest value given
on the command line, an environment value only standing in when none was
given there.
-/

namespace Provisioning.Cli

open Provisioning.Text

/-- Where the values of an argument came from; the command line outranks the environment. -/
inductive Source where
  | environment
  | commandLine
  deriving DecidableEq, Repr

/-- The rank of a source. -/
def Source.rank : Source → Nat
  | .environment => 0
  | .commandLine => 1

/-- The values one argument received. -/
structure Matched where
  id : String
  values : List String
  source : Source
  deriving Repr

/-- What a command line asks for: the subcommands chosen, and the arguments of the last one,
its global arguments included. -/
structure Matches where
  path : List String
  args : List Matched
  deriving Repr

namespace Matches

/-- The entry of an argument. -/
def get? (m : Matches) (id : String) : Option Matched := m.args.find? (·.id == id)

/-- Whether a switch or an argument was given. -/
def flag (m : Matches) (id : String) : Bool := (m.get? id).isSome

/-- The value of an argument that takes one. -/
def value? (m : Matches) (id : String) : Option String := (m.get? id).bind (·.values.getLast?)

/-- The values of an argument. -/
def values (m : Matches) (id : String) : List String := ((m.get? id).map (·.values)).getD []

end Matches

/-- How reading a command line ends when it does not give matches. -/
inductive Stop where
  /-- Help or the version was asked for: shown on standard output, with success. -/
  | show (text : Styled)
  /-- Help shown because nothing was given: on standard error, as a failure. -/
  | helpInstead (text : Styled)
  /-- A refused command line. -/
  | failure (f : Failure)

/-- What has been read of one command's words. -/
structure Level where
  matched : List Matched := []
  /-- The argument whose values wait to be checked, and whether it was named by its long name. -/
  pending : Option (String × List String × Bool) := none
  /-- An option waits for its value. -/
  expectValue : Bool := false
  /-- The next positional. -/
  position : Nat := 0
  /-- The last value went to a positional that collects values. -/
  inPositional : Bool := false
  /-- Every later word is a value. -/
  trailing : Bool := false

namespace Level

/-- Whether an argument was given. -/
def has (l : Level) (id : String) : Bool := l.matched.any (·.id == id)

/-- The identifiers of the given arguments, in the order first given. -/
def ids (l : Level) : List String := l.matched.map (·.id)

/-- Add values to an argument. -/
def record (l : Level) (id : String) (vals : List String) (src : Source) : Level :=
  if l.has id then
    { l with matched := l.matched.map fun m => if m.id == id then { m with values := m.values ++ vals } else m }
  else { l with matched := l.matched ++ [⟨id, vals, src⟩] }

end Level

/-- Check one value of an argument. -/
def checkValue (a : Arg) (v : String) : Except Stop Unit :=
  match a.check with
  | .any => pure ()
  | .path => if v.isEmpty then throw (.failure (.invalidValue a.label "" [] none)) else pure ()
  | .oneOf vs => if vs.contains v then pure () else throw (.failure (.invalidValue a.label v vs (bestHint? v vs)))
  | .reads refusal =>
    match refusal v with
    | some reason => throw (.failure (.refusedValue a.label v reason))
    | none => pure ()

section Reading

variable (c : Command) (bin : String) (env : List (String × String))

/-- Take an argument with its values now. -/
def takeNow (l : Level) (a : Arg) (vals : List String) (src : Source) (long : Bool) : Except Stop Level :=
  match a.action with
  | .help => throw (.show (c.helpText bin long env))
  | .version => throw (.show (Styled.text (c.versionText bin)))
  | .flag =>
    if l.has a.id then throw (.failure (.repeated a.label (c.usage bin [])))
    else pure (l.record a.id ["true"] src)
  | .set | .append =>
    if src == .commandLine && vals.isEmpty then throw (.failure (.invalidValue a.label "" a.choices none))
    else if a.action == .set && l.has a.id then throw (.failure (.repeated a.label (c.usage bin [])))
    else do
      for v in vals do checkValue a v
      pure (l.record a.id vals src)

/-- Check and take the values waiting. -/
def flush (l : Level) : Except Stop Level :=
  match l.pending with
  | none => pure l
  | some (id, vals, long) =>
    match c.arg? id with
    | some a => takeNow c bin env { l with pending := none } a vals .commandLine long
    | none => pure { l with pending := none }

/-- Take an argument after the values waiting. -/
def take (l : Level) (a : Arg) (vals : List String) (long : Bool) : Except Stop Level := do
  let l ← flush c bin env l
  let l ← takeNow c bin env l a vals .commandLine long
  pure { l with expectValue := false, inPositional := false }

/-- The failure for a word that is neither a subcommand nor a value anything takes. -/
def strayWord (l : Level) (word : String) : Failure :=
  let dash := !l.trailing && !c.positionals.isEmpty && word.startsWith "-"
  if !c.subcommands.isEmpty then
    let similar := hints word (c.subcommands.map (·.name))
    if !similar.isEmpty then .similarSubcommand word similar (c.usage bin [])
    else if c.positionals.isEmpty then .unknownSubcommand word (c.usage bin [])
    else .unknownArgument word none none dash (c.usage bin [])
  else .unknownArgument word none none dash (c.usage bin [])

/-- The long names of a command. -/
def longNames (k : Command) : List String := k.options.filterMap (·.long)

/-- The failure for an unknown long name: a similar long name of the command, or else of a
subcommand named later on the line. -/
def unknownLong (l : Level) (name : String) (rest : List String) : Failure :=
  match bestHint? name (longNames c) with
  | some similar =>
    let used := l.ids ++ ((c.options.find? (·.long == some similar)).map (·.id)).toList
    .unknownArgument ("--" ++ name) (some ("--" ++ similar)) none false (c.usage bin used)
  | none =>
    let inSubs := c.subcommands.filterMap fun s =>
      match bestHint? name (longNames s), rest.idxOf? s.name with
      | some similar, some at_ => some (at_, ("--" ++ similar, s.name))
      | _, _ => none
    let best := inSubs.foldl (fun (acc : Option (Nat × String × String)) x =>
      match acc with
      | some y => if x.1 < y.1 then some x else some y
      | none => some x) none
    let dash := best.isNone && !l.trailing && !c.positionals.isEmpty
    .unknownArgument ("--" ++ name) none (best.map (·.2)) dash (c.usage bin l.ids)

/-- Read a value for the next positional. -/
def positionalValue (l : Level) (word : String) : Except Stop Level :=
  match c.positionals[l.position]? with
  | none => throw (.failure (strayWord c bin l word))
  | some p => do
    let l ← flush c bin env l
    pure { l with pending := some (p.id, [word], false), expectValue := false,
                  position := if p.isMultiple then l.position else l.position + 1,
                  inPositional := p.isMultiple }

/-- Read a word in the `--name` or `--name=value` form. -/
def longWord (l : Level) (word : String) (rest : List String) : Except Stop Level :=
  let body := (word.drop 2).toString
  let (name, attached) := match body.splitOn "=" with
    | [n] => (n, none)
    | n :: vs => (n, some ("=".intercalate vs))
    | [] => (body, none)
  match c.options.find? (·.long == some name) with
  | none => throw (.failure (unknownLong c bin l name rest))
  | some a =>
    if a.takesValue then
      match attached with
      | some v => take c bin env l a [v] true
      | none => do
        let l ← flush c bin env l
        pure { l with pending := some (a.id, [], true), expectValue := true, inPositional := false }
    else
      match attached with
      | some v =>
        let used := l.ids.filter (fun id => !c.requiredIds.contains id) ++ [a.id]
        throw (.failure (.unexpectedValue v a.label (c.usage bin used)))
      | none => take c bin env l a [] true

/-- Read a cluster of short names. -/
def shortCluster (l : Level) : List Char → Except Stop Level
  | [] => pure l
  | ch :: more =>
    match c.options.find? (·.short == some ch) with
    | none =>
      let dash := !l.trailing && !c.positionals.isEmpty
      throw (.failure (.unknownArgument ("-" ++ ch.toString) none none dash (c.usage bin [])))
    | some a =>
      if !a.takesValue then do
        let l ← take c bin env l a [] false
        shortCluster l more
      else if more.isEmpty then do
        let l ← flush c bin env l
        pure { l with pending := some (a.id, [], false), expectValue := true, inPositional := false }
      else
        let v := String.ofList (if more.head? == some '=' then more.drop 1 else more)
        take c bin env l a [v] false

/-- Read one word that does not name a subcommand. -/
def readWord (l : Level) (word : String) (rest : List String) : Except Stop Level :=
  if l.trailing then positionalValue c bin env l word
  else if word == "--" then pure { l with trailing := true }
  else if word.startsWith "--" then longWord c bin env l word rest
  else if word.startsWith "-" && word != "-" then shortCluster c bin env l (word.toList.drop 1)
  else if l.expectValue then
    match l.pending with
    | some (id, vals, long) => pure { l with pending := some (id, vals ++ [word], long), expectValue := false }
    | none => positionalValue c bin env l word
  else positionalValue c bin env l word

/-- Show the help of the command that names lead to, as the `help` subcommand does. -/
def helpFor : List String → Command → String → Stop
  | [], k, kbin => .show (k.helpText kbin true env)
  | name :: more, k, kbin =>
    match k.sub? name with
    | some s => helpFor more s (kbin ++ " " ++ s.name)
    | none => .failure (.unknownSubcommand name (k.usage kbin []))

/-- Read words until a subcommand takes over or the words end. -/
def scan : List String → Level → Except Stop (Level × Option (Command × List String))
  | [], l => pure (l, none)
  | word :: rest, l =>
    match (if !l.trailing && !l.inPositional then c.sub? word else none) with
    | some s =>
      if s.isHelp then throw (helpFor env rest c bin)
      else pure (l, some (s, rest))
    | none => do
      let l ← readWord c bin env l word rest
      scan rest l

/-- Fill in absent arguments from their environment variables. -/
def fromEnvironment (l : Level) : Except Stop Level :=
  c.args.foldlM (fun l a =>
    match a.env with
    | some var =>
      match env.lookup var with
      | some v => if l.has a.id then pure l else takeNow c bin env l a [v] .environment false
      | none => pure l
    | none => pure l) l

/-- The required arguments missing, as named in the message: options first, then
positionals in order. -/
def missingNames (l : Level) (missing : List String) : List String :=
  let ids := (c.requiredIds ++ missing).filter (!l.has ·)
  let opts := ids.foldl (fun (acc : List String) id =>
    match c.arg? id with
    | some a => if a.positional then acc else
      let d := (a.display (some true)).toText
      if acc.contains d then acc else acc ++ [d]
    | none => acc) []
  let poss := (c.positionals.filter fun p => ids.contains p.id).map fun p => (p.display (some true)).toText
  opts ++ poss

/-- Check what a command's words gave. -/
def validate (l : Level) (hasSub : Bool) : Except Stop Level := do
  if !hasSub && c.helpWhenEmpty && l.matched.isEmpty then throw (.helpInstead (c.helpText bin false env))
  if !hasSub && c.subcommandRequired then
    throw (.failure (.missingSubcommand bin (c.subcommands.map (·.name)) (c.usage bin [])))
  for m in l.matched do
    let conflicting (x y : String) : Bool := ((c.arg? x).map (·.conflicts.contains y)).getD false
    let others := l.matched.filter fun o => o.id != m.id && (conflicting m.id o.id || conflicting o.id m.id)
    if !others.isEmpty then
      let used := l.ids.filter fun id => !others.any (·.id == id)
      let label (id : String) : String := ((c.arg? id).map Arg.label).getD id
      throw (.failure (.conflict (label m.id) (others.map fun o => label o.id) (c.usage bin used)))
  let missing := c.args.filter fun a =>
    !l.has a.id && (a.required || (!a.requiredUnless.isEmpty && !a.requiredUnless.any l.has))
  if !missing.isEmpty then
    let ids := missing.map (·.id)
    throw (.failure (.missingRequired (missingNames c l ids) (c.usage bin (l.ids ++ ids))))
  pure l

end Reading

/-- Read the words of a command and of the subcommands they choose; gives each command
with how it is reached and what it was given, the first command first. -/
def readLevels (env : List (String × String)) : Nat → Command → String → List String →
    Except Stop (List (Command × String × List Matched))
  | 0, _, _, _ => pure []
  | fuel + 1, c, bin, words => do
    let (l, sub) ← scan c bin env words {}
    let deeper ← match sub with
      | some (s, rest) => readLevels env fuel s (bin ++ " " ++ s.name) rest
      | none => pure []
    let l ← flush c bin env l
    let l ← fromEnvironment c bin env l
    let l ← validate c bin env l sub.isSome
    pure ((c, bin, l.matched) :: deeper)

/-- The final values of global arguments over the levels, first level first: a level's
value replaces an earlier one unless that came from a stronger source. -/
def mergeGlobals (levels : List (Command × String × List Matched)) : List Matched :=
  levels.foldl (fun acc (c, _, ms) =>
    ms.foldl (fun acc m =>
      if ((c.arg? m.id).map (·.global)).getD false then
        match acc.find? (·.id == m.id) with
        | some old => if old.source.rank > m.source.rank then acc
          else acc.map fun x => if x.id == m.id then m else x
        | none => acc ++ [m]
      else acc) acc) []

namespace Command

/-- Read a command line against a declared command. -/
def parse (decl : Command) (env : List (String × String)) (words : List String) : Except Stop Matches := do
  let root := decl.build false []
  let levels ← readLevels env (words.length + 1) root root.name words
  let globals := mergeGlobals levels
  match levels.getLast? with
  | none => pure ⟨[], []⟩
  | some (c, _, ms) =>
    let own := ms.filter fun m => !(((c.arg? m.id).map (·.global)).getD false)
    pure ⟨(levels.drop 1).map (·.1.name), own ++ globals⟩

end Command

end Provisioning.Cli
