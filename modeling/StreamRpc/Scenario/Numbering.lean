import StreamRpc.Stream.Demux

/-! # Numbered things

Reports refer to handles by number, in the order in which they were handed out: depth first within
a value.  A number is never used twice, and one whose thing is gone stays empty.

* `Numbering.get?_give`   a thing that was given a number is found under it
-/

namespace StreamRpc

/-- Things by number, from zero on; none, where one is gone. -/
structure Numbering (α : Type) where
  items : List (Option α) := []

namespace Numbering

variable {α : Type}

/-- Gives the next number to a thing. -/
def give (n : Numbering α) (a : α) : Nat × Numbering α :=
  (n.items.length, { items := n.items ++ [some a] })

/-- The thing with a number, if it is there. -/
def get? (n : Numbering α) (i : Nat) : Option α :=
  n.items[i]?.join

/-- Takes a thing away. -/
def take (n : Numbering α) (i : Nat) : Numbering α :=
  { items := n.items.set i none }

/-- The number just given names the item it was given to. -/
theorem get?_give (n : Numbering α) (a : α) : (n.give a).2.get? (n.give a).1 = some a := by
  simp [give, get?]

end Numbering

/-- How a handle appears in a report. -/
structure NumberedHandle where
  number : Nat
  id : StreamId
  deriving DecidableEq, Repr, Inhabited

/-- How a client value appears in a report. -/
abbrev NumberedValue := Value NumberedHandle

namespace Numbering

variable {α : Type}

/-- Hands out a handle. -/
def handOut (wrap : Handle → α) (h : Handle) : StateM (Numbering α) NumberedHandle :=
  fun n =>
    let (number, n) := n.give (wrap h)
    ({ number, id := h.id }, n)

/-- Hands out the handles in a value. -/
def handOutValue (wrap : Handle → α) (v : ClientValue) : StateM (Numbering α) NumberedValue :=
  v.traverse (handOut wrap)

/-- Hands out the handles in a notification. -/
def handOutEvent (wrap : Handle → α) :
    Notification ClientValue → StateM (Numbering α) (Notification NumberedValue)
  | .next v => do return .next (← handOutValue wrap v)
  | .error f => pure (.error f)
  | .completed => pure .completed

/-- Hands out the handles in notifications in turn. -/
def handOutEvents (wrap : Handle → α) (ns : List (Notification ClientValue)) :
    StateM (Numbering α) (List (Notification NumberedValue)) :=
  ns.mapM (handOutEvent wrap)

end Numbering

end StreamRpc
