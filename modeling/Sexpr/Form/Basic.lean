/-
# Forms

A form is an atom, which is one token, or a list of forms between brackets.  Either may be quoted,
and either stands at a place: an atom where its token does, a list where its opening bracket does.
The place of an atom is kept beside the token, because a form may be moved without touching its
text.

Recursion over forms runs in pairs, one function for a form and one for a list of forms.
-/
import Sexpr.Token.Basic

namespace Sexpr

inductive Form where
  | atom (quotation : Option Marker) (position : Position) (token : Token)
  | list (quotation : Option Marker) (position : Position) (bracket : Bracket)
      (children : List Form)

namespace Form

/-! ## 1. Parts -/

def quotation : Form → Option Marker
  | atom q _ _ => q
  | list q _ _ _ => q

def position : Form → Position
  | atom _ p _ => p
  | list _ p _ _ => p

def token? : Form → Option Token
  | atom _ _ t => some t
  | list .. => none

def bracket? : Form → Option Bracket
  | atom .. => none
  | list _ _ b _ => some b

def children? : Form → Option (List Form)
  | atom .. => none
  | list _ _ _ cs => some cs

def isAtom (f : Form) : Bool := f.token?.isSome

def isList (f : Form) : Bool := f.children?.isSome

/-- The empty list, where nothing was read. -/
def empty : Form := list none .start .round []

/-! ## 2. Measures -/

mutual

/-- The number of atoms and lists in a form, itself included. -/
def size : Form → Nat
  | atom .. => 1
  | list _ _ _ cs => 1 + sizeAll cs

def sizeAll : List Form → Nat
  | [] => 0
  | c :: cs => c.size + sizeAll cs

end

mutual

/-- The nesting of a form; an atom and an empty list have depth one. -/
def depth : Form → Nat
  | atom .. => 1
  | list _ _ _ cs => 1 + depthAll cs

def depthAll : List Form → Nat
  | [] => 0
  | c :: cs => max c.depth (depthAll cs)

end

end Form

end Sexpr
