import LandUse.Nl.Document

/-! A segment that is not finished leaves its body, and the next one of its kind gets the same number. -/

namespace LandUse.Nl

structure BodySink (α : Type) where
  document : Document α := {}
  constraints : Nat := 0
  objectives : Nat := 0
  segments : List SegmentInfo := []

namespace BodySink

open Scalar

variable {α : Type} [Scalar α]

def weightCode (weight : α) : List (Instr α) :=
  if isZero weight || same weight one then [] else [.op .mult, .num weight]

def body (s : BodySink α) (segment : Segment α) (code : List (Instr α)) : Body α :=
  match segment.kind with
  | .constraint .. => ⟨.constraint s.constraints, code⟩
  | .objective sense weight => ⟨.objective s.objectives sense, weightCode weight ++ code⟩

def close (s : BodySink α) (segment : Segment α) (offsets : List Int) : BodySink α :=
  match segment.kind with
  | .constraint op rhs =>
    { s with
      document := (s.document.addJacobian s.constraints offsets).addRange op rhs
      constraints := s.constraints + 1
      segments := s.segments ++ [⟨false, segment.label, s.constraints, offsets⟩] }
  | .objective .. =>
    { s with
      document := s.document.addGradient s.objectives offsets
      objectives := s.objectives + 1
      segments := s.segments ++ [⟨true, segment.label, s.objectives, offsets⟩] }

def add (s : BodySink α) (segment : Segment α) (code : List (Instr α)) (complete : Bool) : BodySink α :=
  let opened := { s with document := { s.document with bodies := s.document.bodies ++ [s.body segment code] } }
  if complete then opened.close segment (Instr.offsets code) else opened

def sink : Sink α (BodySink α) where
  receive s segment code complete := (.ok (), s.add segment (code.map (·.instr)) complete)

end BodySink

end LandUse.Nl
