import LandUse.Nl.Text

namespace LandUse.Nl

inductive Phase where
  | writing
  | closed (more : Bool)
  | failed (message : String)

structure Writer where
  document : Document Float := {}
  phase : Phase := .writing

namespace Writer

def edit (w : Writer) (f : Document Float → Document Float) : Writer := { w with document := f w.document }

def instr (w : Writer) (i : Instr Float) : Writer :=
  match w.document.append? i, w.phase with
  | some d, _ => { w with document := d }
  | none, .failed _ => w
  | none, _ => { w with phase := .failed "expression outside of a constraint or objective" }

def bounds (w : Writer) (lower upper : Float) : Writer :=
  let phase := match w.phase with
    | .closed _ => .closed true
    | phase => phase
  { document := w.document.addBounds lower upper, phase := phase }

def finish (w : Writer) : Except Failure (String × Stats) × Writer :=
  match w.phase with
  | .writing => (.ok (w.document.text, w.document.stats), { w with phase := .closed false })
  | .closed more =>
    let message := if more then "cannot flush segment b" else "cannot rewind segment b"
    (.error (.access message none), { w with phase := .failed message })
  | .failed message => (.error (.access message none), w)

end Writer

end LandUse.Nl
