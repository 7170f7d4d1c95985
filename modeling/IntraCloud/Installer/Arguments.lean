import Mathlib.Data.List.Basic

/-!
# Arguments on a Windows command line

`ConvertTo-WindowsQuotedArgument` of `WslDistro.Common.ps1`, and the rules of `CommandLineToArgvW` that take its
results apart. Strings are lists of UTF-16 code units.
-/

namespace Installer

/-- A .NET `char`. -/
abbrev CodeUnit := UInt16

def backslash : CodeUnit := 0x5C

def quote : CodeUnit := 0x22

def space : CodeUnit := 0x20

def tab : CodeUnit := 0x09

/-! ## Quoting -/

/-- `\s` of a .NET regular expression. -/
def isWhiteSpace (c : CodeUnit) : Bool :=
  let n := c.toNat
  (9 ≤ n && n ≤ 13) || n == 0x20 || n == 0x85 || n == 0xA0 || n == 0x1680 || (0x2000 ≤ n && n ≤ 0x200A) ||
    n == 0x2028 || n == 0x2029 || n == 0x202F || n == 0x205F || n == 0x3000

/-- The loop over the characters, after `backslashCount` backslashes that are not written yet, with what follows
it. -/
def quoteFrom (backslashCount : Nat) : List CodeUnit → List CodeUnit
  -- The trailing backslashes are doubled before the closing quote.
  | [] => List.replicate (backslashCount * 2) backslash ++ [quote]
  | c :: s =>
    if c = backslash then quoteFrom (backslashCount + 1) s
    else if c = quote then List.replicate (backslashCount * 2 + 1) backslash ++ quote :: quoteFrom 0 s
    else List.replicate backslashCount backslash ++ c :: quoteFrom 0 s

/-- `ConvertTo-WindowsQuotedArgument`, where `equalsEmpty` is `-eq ''`: the operator compares as the invariant
culture does, which ignores some characters. -/
def convertToWindowsQuotedArgument (equalsEmpty : List CodeUnit → Bool) (argument : List CodeUnit) :
    List CodeUnit :=
  if equalsEmpty argument then [quote, quote]
  else if !argument.any fun c => isWhiteSpace c || c == quote then argument
  else quote :: quoteFrom 0 argument

/-- `$startInfo.Arguments` of `Invoke-WslRaw`. -/
def argumentsString (equalsEmpty : List CodeUnit → Bool) (arguments : List (List CodeUnit)) : List CodeUnit :=
  [space].intercalate (arguments.map (convertToWindowsQuotedArgument equalsEmpty))

/-! ## Splitting -/

/-- `CommandLineToArgvW` after the program name, within an argument of which `current` has been read, or between
two arguments, and after a run of backslashes: before a quote they count in pairs, and an odd one escapes it. -/
def splitFrom (current : Option (List CodeUnit)) (inQuotes : Bool) (backslashes : Nat) :
    List CodeUnit → List (List CodeUnit)
  | [] => (current.map (· ++ List.replicate backslashes backslash)).toList
  | c :: s =>
    let read := current.getD []
    if c = backslash then splitFrom (some read) inQuotes (backslashes + 1) s
    else if c = quote then
      let half := read ++ List.replicate (backslashes / 2) backslash
      if backslashes % 2 = 0 then splitFrom (some half) (!inQuotes) 0 s
      else splitFrom (some (half ++ [quote])) inQuotes 0 s
    else if (c = space ∨ c = tab) ∧ inQuotes = false then
      (current.map (· ++ List.replicate backslashes backslash)).toList ++ splitFrom none false 0 s
    else splitFrom (some (read ++ List.replicate backslashes backslash ++ [c])) inQuotes 0 s

/-- The arguments of a command line, which ends at a NUL. -/
def commandLineToArgv (commandLine : List CodeUnit) : List (List CodeUnit) :=
  splitFrom none false 0 (commandLine.takeWhile (· ≠ 0))

end Installer
