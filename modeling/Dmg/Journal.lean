import Dmg.Journal.Message

/-
  The journal: the events reported so far that are severe
  enough to be kept.

  Key definitions include:
    * `Journal`
    * `Journal.note`
    * `Journal.noteAll`
    * `Journaled`
-/

namespace Dmg

/-
  The least severe rank that is kept, zero if none is, and
  what was kept, oldest first.
-/
structure Journal where
  limit : Nat := 0
  entries : Array Message := #[]
deriving DecidableEq, Repr

namespace Journal

/- A journal that keeps a level and all that is more severe. -/
def keeping
    (l : Level) : Journal where
  limit := l.rank

/- Report an event. -/
@[inline]
def note
    (m : Message)
    (j : Journal) : Journal :=
  if m.level.rank ≤ j.limit then
    { j with entries := j.entries.push m }
  else j

/- Report events in order. -/
def noteAll
    (ms : List Message)
    (j : Journal) : Journal :=
  ms.foldl (fun j m => j.note m) j

theorem limit_note
    (m : Message)
    (j : Journal) :
    (j.note m).limit = j.limit := by
  unfold note
  split <;> rfl

theorem limit_noteAll
    (ms : List Message)
    (j : Journal) :
    (j.noteAll ms).limit = j.limit := by
  induction ms generalizing j with
  | nil =>
      rfl
  | cons m ms ih =>
      exact (ih (j.note m)).trans (limit_note m j)

end Journal

/- An activity that may report events. -/
abbrev Journaled := StateM Journal

/- Report an event. -/
def report
    (m : Message) : Journaled Unit :=
  modify (Journal.note m)

end Dmg
