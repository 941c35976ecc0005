import DalSchema.Render.Rust
import DalSchema.Render.Sql

/-!
# Output formats

A format is chosen by name. In it a schema is written to a sink, piece by piece, until the sink
fails or the schema ends. The rendered text is what a sink that never fails receives.
-/

namespace DalSchema

inductive Format where
  | mysql | postgresql | rust | sqlite
  deriving Repr, DecidableEq, Inhabited

namespace Format

def name : Format → String
  | mysql => "mysql"
  | postgresql => "postgresql"
  | rust => "rust"
  | sqlite => "sqlite"

def all : List Format := [mysql, postgresql, rust, sqlite]

/-- `postgres` is a second name of `postgresql`. -/
def ofName? (selector : String) : Option Format :=
  if selector == "postgres" then some postgresql else all.find? fun f => f.name == selector

/-- The names a command line offers. -/
def choices : List String := ["mysql", "postgres", "postgresql", "sqlite", "rust"]

def records (options : RustOptions) (s : Schema) : Format → List Log.Record
  | mysql => Dialect.mysql.records s
  | postgresql => Dialect.postgresql.records s
  | rust => Rust.records options s
  | sqlite => Dialect.sqlite.records s

def writeTo {σ ε : Type} (sink : Sink σ ε) (options : RustOptions) (s : Schema) :
    Format → Writing σ (RenderFault ε) Unit
  | mysql => Dialect.mysql.writeSchema sink s
  | postgresql => Dialect.postgresql.writeSchema sink s
  | rust => Rust.writeSchema sink options s
  | sqlite => Dialect.sqlite.writeSchema sink s

/-- The whole text of a schema. -/
def render (options : RustOptions) (s : Schema) (f : Format) : Except (RenderFault Empty) String :=
  (f.writeTo .buffer options s).text

end Format

/-- Writes a schema to a sink, in the format of this name. -/
def renderTo {σ ε : Type} (sink : Sink σ ε) (selector : String) (options : RustOptions)
    (s : Schema) : Writing σ (RenderFault ε) Unit :=
  match Format.ofName? selector with
  | some f => f.writeTo sink options s
  | none => throw (.invalidFormat selector)

end DalSchema
