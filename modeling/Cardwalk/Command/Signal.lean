/-!
# Signals

A run is cancelled through a flag.  Tokens share flags: a copy of a token
has the flag of the token.  The first signal sets the flag; a further one
asks for the end of the program.
-/

set_option autoImplicit false

namespace Cardwalk

/-- For each token the number of its flag, and the flags. -/
structure Tokens where
  flagOf : List Nat := [0]
  flags : List Bool := [false]
deriving DecidableEq, Repr, Inhabited

namespace Tokens

def flag (t : Tokens) (token : Nat) : Nat := t.flagOf.getD token 0

def isCancelled (t : Tokens) (token : Nat) : Bool := t.flags.getD (t.flag token) false

def copy (t : Tokens) (token : Nat) : Tokens :=
  { t with flagOf := t.flagOf ++ [t.flag token] }

def fresh (t : Tokens) : Tokens := ⟨t.flagOf ++ [t.flags.length], t.flags ++ [false]⟩

def cancel (t : Tokens) (token : Nat) : Tokens :=
  { t with flags := t.flags.set (t.flag token) true }

structure Reaction where
  /-- The program is to end at once. -/
  ends : Bool
  message : String

def reaction (cancelled : Bool) (signal : String) : Reaction :=
  if cancelled then ⟨true, "\nReceived " ++ signal ++ " again, exiting now\n"⟩
  else
    ⟨false, "\nReceived " ++ signal
      ++ ", stopping after the current card (repeat to force exit)...\n"⟩

def receive (t : Tokens) (token : Nat) (signal : String) : Reaction × Tokens :=
  (reaction (t.isCancelled token) signal, t.cancel token)

end Tokens

end Cardwalk
