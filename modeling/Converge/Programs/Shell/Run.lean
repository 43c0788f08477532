import Converge.Programs.Shell.Builtin

/-!
# Running scripts

`Script.run` runs a script in a shell, and `start` runs any program by its words; the shell itself
is one of the programs. Fuel bounds the depth of a script and the rounds of its loops; a script
that uses it up counts as one without an end.
-/

namespace Converge.Programs.Shell

/-- Runs a script in a shell. -/
abbrev Runner := Script → Shell → Flow × Shell

/-! ## 1. Programs -/

/-- The end of a shell. -/
def endOf (r : Flow × Shell) : Ending × Session :=
  match r.1 with
  | .killed signal => (.killed signal, r.2.session)
  | _ => (.exited r.2.last, r.2.session)

/-- Runs the text of a script in a new shell. -/
def runText (run : Runner) (name : String) (args : List String) (text : String) (s : Session) :
    Ending × Session :=
  let sh : Shell := { session := s, name, args }
  match Script.parse text with
  | .ok script => endOf (run script sh)
  | .error message => (.exited 2, (sh.complain message).session)

/-- The shell as a program: it reads the script from an argument, a file or its input. -/
def asProgram (run : Runner) (name : String) : Program
  | "-c" :: text :: rest, s => runText run (rest.headD name) rest.tail text s
  | [], s => runText run name [] (Text.decode s.input) { s with input := [] }
  | path :: rest, s =>
    match s.bytesUnder path with
    | .ok (bytes, s) => runText run path rest (Text.decode bytes) s
    | .error _ =>
      (.exited 2, s.complain (name ++ ": 0: cannot open " ++ path ++ ": No such file\n"))

/-- The words of a command behind `env` and the variables it sets. -/
def withoutEnv : List String → List String
  | "env" :: rest | "/usr/bin/env" :: rest | "/bin/env" :: rest =>
    rest.dropWhile fun a => a.toList.contains '='
  | argv => argv

/-- Runs a program by its words. -/
def start (run : Runner) (argv : List String) (s : Session) : Except IoFault (Ending × Session) :=
  match withoutEnv argv with
  | [] => .ok (.exited 0, s)
  | word :: args =>
    (find s.files word).map fun name =>
      match tool? name with
      | some program => program args s
      | none => asProgram run word args s

/-! ## 2. Streams -/

/-- Text without the line feeds at its end. -/
def withoutBreaks (s : String) : String :=
  String.ofList (s.toList.reverse.dropWhile (· == '\n')).reverse

/-- Runs a script in a shell of its own and keeps what it writes. -/
def capture (run : Runner) : Capture := fun text sh =>
  match Script.parse text with
  | .error message => ("", { sh.complain message with last := 2 })
  | .ok script =>
    let (_, inner) := run script { sh with session := { sh.session with written := [] } }
    let errors := inner.session.written.filter fun w => w.1 = .err
    let session := { inner.session with written := errors ++ sh.session.written }
    let text := withoutBreaks (Text.decode (inner.session.bytesOf .out))
    (text, { sh with session, last := inner.last })

/-- Where the streams of a command lead. -/
structure Routes where
  target : Stream → Session.Target := .stream
  input : Option (List UInt8) := none

/-- Opens what a lead names; `none` with a message if that fails. -/
def open_ (run : Runner) (r : Routes) (l : Lead) (sh : Shell) : Option Routes × Shell :=
  let route (source : Stream) (t : Session.Target) : Routes :=
    { r with target := fun s => if s = source then t else r.target s }
  match l with
  | .toStream source target => (some (route source (r.target target)), sh)
  | .toFile source append path =>
    let (path, sh) := sh.expandText (capture run) path
    match path with
    | "/dev/null" => (some (route source .nowhere), sh)
    | "/dev/stderr" => (some (route source (r.target .err)), sh)
    | "/dev/stdout" => (some (route source (r.target .out)), sh)
    | path =>
      let before := if append then (sh.session.files.read path).toOption.getD [] else []
      match sh.session.files.write path before with
      | .ok files =>
        (some (route source (.file path)), { sh with session := { sh.session with files } })
      | .error _ => (none, sh.complain ("cannot create " ++ path ++ ": Directory nonexistent"))
  | .fromFile path =>
    let (path, sh) := sh.expandText (capture run) path
    match sh.session.bytesUnder path with
    | .ok (bytes, session) => (some { r with input := some bytes }, { sh with session })
    | .error _ => (none, sh.complain ("cannot open " ++ path ++ ": No such file"))

/-- Runs a command whose streams are led elsewhere. -/
def withLeads (run : Runner) (leads : List Lead) (body : Shell → Flow × Shell) (sh : Shell) :
    Flow × Shell :=
  if leads.isEmpty then body sh
  else
    let (routes?, sh) := leads.foldl
      (fun ((r?, sh) : Option Routes × Shell) l =>
        match r? with
        | some r => open_ run r l sh
        | none => (none, sh))
      (some {}, sh)
    match routes? with
    | none => (.goes, { sh with last := 2 })
    | some r =>
      let input := sh.session.input
      let written := sh.session.written
      let (flow, sh) := body { sh with
        session := { sh.session with written := [], input := r.input.getD input } }
      let session := sh.session.redirect written r.target
      let session := if r.input.isSome then { session with input } else session
      (flow, { sh with session })

/-! ## 3. Commands -/

/-- Runs a program from the shell. -/
def runProgram (run : Runner) (argv : List String) (sh : Shell) : Flow × Shell :=
  match start run argv sh.session with
  | .ok (.exited code, session) => (.goes, { sh with session, last := code })
  | .ok (.killed signal, session) => (.goes, { sh with session, last := 128 + signal })
  | .error fault =>
    let word := argv.headD ""
    if fault.isMissing then (.goes, { sh.complain (word ++ ": not found") with last := 127 })
    else (.goes, { sh.complain (word ++ ": Permission denied") with last := 126 })

/-- Runs a command by its words. -/
def runWords (run : Runner) (argv : List String) (sh : Shell) : Flow × Shell :=
  match argv with
  | ["exec"] => (.goes, sh)
  | "exec" :: argv =>
    let (_, sh) := runProgram run argv sh
    (.exits, sh)
  | "eval" :: args =>
    match Script.parse (" ".intercalate args) with
    | .ok script => run script sh
    | .error message => (.exits, { sh.complain message with last := 2 })
  | name :: args =>
    match builtin? name with
    | some builtin => builtin args sh
    | none => runProgram run argv sh
  | [] => (.goes, sh)

/-- Gives variables their values. -/
def assignAll (run : Runner) (ws : List Word) (sh : Shell) : Shell :=
  let hasScript := ws.any fun w => w.any fun p =>
    match p with
    | .output _ _ => true
    | _ => false
  let sh := ws.foldl
    (fun (sh : Shell) w =>
      match Shell.assignment? w with
      | some (name, value) =>
        let (v, sh) := sh.expandText (capture run) value
        sh.assign name v
      | none => sh)
    sh
  if hasScript then sh else { sh with last := 0 }

/-- Runs a simple command. -/
def runSimple (run : Runner) (ws : List Word) (leads : List Lead) (sh : Shell) : Flow × Shell :=
  let isAssignment (w : Word) : Bool := (Shell.assignment? w).isSome
  let (argv, sh) := sh.expand (capture run) (ws.dropWhile isAssignment)
  if sh.broken then (.exits, { sh with last := 2 })
  else
    match argv with
    | [] =>
      let (flow, sh) :=
        withLeads run leads (fun sh => (.goes, assignAll run (ws.takeWhile isAssignment) sh)) sh
      if sh.broken then (.exits, { sh with last := 2 }) else (flow, sh)
    | argv => withLeads run leads (runWords run argv) sh

/-- Runs two scripts of which the second reads what the first one writes. -/
def runPipe (run : Runner) (a b : Script) (sh : Shell) : Flow × Shell :=
  let written := sh.session.written
  let (flow, first) := run a { sh with session := { sh.session with written := [] } }
  match flow with
  | .killed signal => (.killed signal, first)
  | _ =>
    let errors := first.session.written.filter fun w => w.1 = .err
    let session := { first.session with
      written := errors ++ written
      input := first.session.bytesOf .out }
    let (flow, second) := run b { sh with session }
    let sh := { sh with
      session := { second.session with input := first.session.input }
      last := second.last }
    match flow with
    | .killed signal => (.killed signal, sh)
    | _ => (.goes, sh)

/-- Runs a script in a shell of its own. -/
def isolated (run : Runner) (body : Script) (sh : Shell) : Flow × Shell :=
  match run body sh with
  | (.killed signal, inner) => (.killed signal, inner)
  | (_, inner) => (.goes, { sh with session := inner.session, last := inner.last })

/-! ## 4. Scripts -/

/-- **Runs a script.** -/
def Script.run : Nat → Script → Shell → Flow × Shell
  | 0, _, sh => (.exits, { sh with session := sh.session.hang })
  | fuel + 1, script, sh =>
    match script with
    | .nothing => (.goes, sh)
    | .simple ws leads => runSimple (Script.run fuel) ws leads sh
    | .pipe a b => runPipe (Script.run fuel) a b sh
    | .both a b =>
      match Script.run fuel a sh with
      | (.goes, sh) => Script.run fuel b sh
      | stopped => stopped
    | .andThen a b =>
      match Script.run fuel a sh with
      | (.goes, sh) => if sh.last = 0 then Script.run fuel b sh else (.goes, sh)
      | stopped => stopped
    | .orElse a b =>
      match Script.run fuel a sh with
      | (.goes, sh) => if sh.last = 0 then (.goes, sh) else Script.run fuel b sh
      | stopped => stopped
    | .invert a =>
      match Script.run fuel a sh with
      | (.goes, sh) => (.goes, { sh with last := if sh.last = 0 then 1 else 0 })
      | stopped => stopped
    | .branch c yes no =>
      match Script.run fuel c sh with
      | (.goes, sh) =>
        if sh.last = 0 then Script.run fuel yes sh else Script.run fuel no { sh with last := 0 }
      | stopped => stopped
    | .loop untilSuccess c body =>
      match Script.run fuel c sh with
      | (.goes, sh) =>
        if (sh.last == 0) == untilSuccess then (.goes, { sh with last := 0 })
        else
          match Script.run fuel body sh with
          | (.goes, sh) => Script.run fuel (.loop untilSuccess c body) sh
          | (.skips, sh) => Script.run fuel (.loop untilSuccess c body) sh
          | (.breaks, sh) => (.goes, sh)
          | stopped => stopped
      | stopped => stopped
    | .each name values body =>
      let (vs, sh) := sh.expand (capture (Script.run fuel)) values
      match vs with
      | [] => (.goes, sh)
      | v :: rest =>
        let later : Script := .each name (rest.map fun v => [.plain v true]) body
        match Script.run fuel body (sh.assign name v) with
        | (.goes, sh) => Script.run fuel later sh
        | (.skips, sh) => Script.run fuel later sh
        | (.breaks, sh) => (.goes, sh)
        | stopped => stopped
    | .group own body leads =>
      withLeads (Script.run fuel) leads
        (fun sh =>
          if own then isolated (Script.run fuel) body sh else Script.run fuel body sh)
        sh

/-- The depth and the rounds that a script may have. -/
def patience : Nat := 100000

/-- Runs any program by its words. -/
def launch (argv : List String) (s : Session) : Except IoFault (Ending × Session) :=
  start (Script.run patience) argv s

end Converge.Programs.Shell
