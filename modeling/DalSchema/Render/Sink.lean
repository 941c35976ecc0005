import DalSchema.Schema.Vocabulary

/-!
# Sinks

A sink takes one text after the other and may fail at any of them. What it has taken by then stays
in it, so the state of a sink outlives an error. A rendering hands texts to a sink; it fails with
the sink, and also by itself where it does not know what to write.
-/

namespace DalSchema

abbrev Writing (σ ε : Type) : Type → Type := ExceptT ε (StateM σ)

namespace Writing

variable {σ ε : Type}

def runFrom {α : Type} (start : σ) (w : Writing σ ε α) : Except ε α × σ := (ExceptT.run w).run start

/-- Goes through a list; `write` is also told whether another element follows. -/
def forEach {α : Type} (xs : List α) (write : α → Bool → Writing σ ε Unit) : Writing σ ε Unit :=
  xs.zipIdx.forM fun (x, i) => write x (i != xs.length - 1)

end Writing

structure Sink (σ ε : Type) where
  write : String → Writing σ ε Unit

inductive RenderFault (ε : Type) where
  | invalidFormat (name : String)
  /-- A scalar type that the dialect has no keyword for. -/
  | unknownType (type : ScalarType)
  | sink (error : ε)
  deriving Repr, DecidableEq, Inhabited

namespace Sink

variable {ε : Type}

def put {σ : Type} (sink : Sink σ ε) (text : String) : Writing σ (RenderFault ε) Unit :=
  (sink.write text).adapt .sink

def recorder : Sink (List String) ε where
  write text := modify (· ++ [text])

def buffer : Sink String ε where
  write text := modify (· ++ text)

/-- Keeps `room` texts and fails at the next. -/
def limited (room : Nat) (error : ε) : Sink (List String) ε where
  write text := do
    if (← get).length < room then modify (· ++ [text]) else throw error

end Sink

def Writing.text {ε : Type} (w : Writing String ε Unit) : Except ε String :=
  match w.runFrom "" with
  | (.ok (), text) => .ok text
  | (.error e, _) => .error e

end DalSchema
