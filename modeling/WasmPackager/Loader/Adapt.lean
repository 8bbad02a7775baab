/-
# `Loader.Adapt` — from a generated loader to one the runtime can use

`adapt` finds the opening at the beginning of a loader and the closing at
its end, takes what stands between them, insists that it mentions the entry
point, and puts the initializing call behind it.  The two searches are made
independently on the same text, so they can overlap: that is refused too.
-/
import WasmPackager.Loader.Contract
import WasmPackager.Report.Failure
import WasmPackager.Template.Pattern

namespace WasmPackager.Loader

def opening : Pattern := .ofTemplate openingTemplate .atStart placeholder

def closing : Pattern := .ofTemplate closingTemplate .atEnd placeholder

/-- Where the two known parts of a loader lie. -/
structure Shape where
  opening : Span
  closing : Span
deriving DecidableEq

/-- The shape of a text with respect to two patterns; the opening is searched first. -/
def shapeOf (opening closing : Pattern) (text file : Bytes) : Except Failure Shape :=
  match opening.find text with
  | none => .error (.loaderUnexpected .opening file)
  | some openingSpan =>
    match closing.find text with
    | none => .error (.loaderUnexpected .closing file)
    | some closingSpan => .ok ⟨openingSpan, closingSpan⟩

/-- The bytes between the two parts, if they are in order and mention the entry point.  The
spans may be any: one that ends behind the text is cut off there, one that begins behind it
is out of range. -/
def payload (text : Bytes) (shape : Shape) (file : Bytes) : Except Failure Bytes :=
  if shape.closing.start < shape.opening.stop then .error (.loaderOverlap file)
  else if text.length < shape.opening.stop then .error .spanOutOfRange
  else
    let between := (text.drop shape.opening.stop).take (shape.closing.start - shape.opening.stop)
    if entryPoint.occursIn between then .ok between else .error (.entryPointMissing file)

def assemble (payload : Bytes) : Bytes := payload ++ initializeCall

/-- The loader for the runtime, made from a generated one. -/
def adapt (text file : Bytes) : Except Failure Bytes := do
  let shape ← shapeOf opening closing text file
  return assemble (← payload text shape file)

/-- What a verbose run says about the form a loader is expected to have. -/
def expectations : List Bytes :=
  [ascii "expected prefix:\n```" ++ opening.source ++ ascii "```",
   ascii "expected suffix:\n```" ++ closing.source ++ ascii "```"]

end WasmPackager.Loader
