import Parley.Tool
set_option autoImplicit false

/-! # Tool registries

A registry holds tools by name, in the order in which they were registered. Registering a tool under
a name that is taken replaces the tool and keeps its place. Running a tool never fails: an unknown
name and an error raised by a handler are results of their own. -/

namespace Parley.Tool

/-- The tools that can be called, by name. -/
abbrev Registry (σ : Type) := Ordered String (Tool σ)

namespace Registry

variable {σ : Type}

/-- Add a tool, in place of one with its name. -/
def register (tool : Tool σ) (registry : Registry σ) : Registry σ :=
  Ordered.insert tool.name tool registry

/-- Remove the tool with a name. -/
def unregister (name : String) (registry : Registry σ) : Registry σ :=
  Ordered.erase name registry

/-- The tool with a name. -/
def get? (name : String) (registry : Registry σ) : Option (Tool σ) :=
  Ordered.find? name registry

/-- The names of the tools, in order. -/
def names (registry : Registry σ) : List String :=
  Ordered.keys registry

/-- What a model sees of the tools, in order. -/
def definitions (registry : Registry σ) : List Definition :=
  registry.map fun entry => entry.2.definition

/-- The work of the tool with a name. -/
def work (name : String) (arguments : Arguments) (registry : Registry σ) : Work σ Result :=
  match registry.get? name with
  | none => .done (.failure ("Tool '" ++ name ++ "' not found"))
  | some tool => (tool.execute arguments).map Result.ofHandler

/-- Run the tool with a name, with nothing else going on. -/
def execute (name : String) (arguments : Arguments) (registry : Registry σ) (world : σ) :
    Result × σ :=
  (registry.work name arguments).run world

end Registry

end Parley.Tool
