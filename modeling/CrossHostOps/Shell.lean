import CrossHostOps.Text

/-!
The remote shell behind a bastion, as the copy code uses it: commands go in, and what comes
back is output with an exit code, or an error of the PTY.
-/

namespace CrossHostOps.Shell

open Text

def shellQuote (arg : Str) : Str :=
  if arg = [] then "''"
  else '\'' :: (arg.flatMap fun c => if c = '\'' then "'\\''" else [c]) ++ ['\'']

/-- A navigated `PtyShell`, by what it answers; errors are given by their message. -/
structure PtyShell where
  /-- `run_command_plain`: all output and the exit code. -/
  plain : Str → Except Str (Str × ℤ)
  /-- `run_command_raw`. -/
  raw : Str → Except Str (Str × ℤ)
  /-- `run_command_raw_b64` with the expected length: the chunks forwarded before it returned,
  and what it returned. -/
  rawB64 : Str → ℕ → List Bytes × Except Str ℤ

/-- `run_and_capture`: the exit code is dropped. -/
def runAndCapture (sh : PtyShell) (command : Str) : Except Str Str :=
  (sh.plain command).map (·.1)

def runAndCaptureRaw (sh : PtyShell) (command : Str) : Except Str Str :=
  (sh.raw command).map (·.1)

def sttyRaw : Str := "stty raw -echo"
def sttySane : Str := "stty sane"

def enterFailedMessage (code : ℤ) : Str :=
  "stty raw -echo failed (exit code " ++ showInt code ++ ")"

def rawGuardEnter (sh : PtyShell) : Except Str Unit :=
  match sh.plain sttyRaw with
  | .error e => .error e
  | .ok (_, code) => if code ≠ 0 then .error (enterFailedMessage code) else .ok ()

/-- `RawGuard::complete`: only the round trip counts. -/
def rawGuardComplete (sh : PtyShell) : Except Str Unit := (sh.raw sttySane).map fun _ => ()

/-- `is_stall_class`: the relay went silent, or died. -/
def isStallClass (message : Str) : Bool :=
  contains "timed out waiting for shell output" message ||
    contains "shell closed unexpectedly" message

end CrossHostOps.Shell
