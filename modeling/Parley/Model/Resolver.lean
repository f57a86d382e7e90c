import Parley.Model.Lookup
set_option autoImplicit false

/-! # What is known about a model

The kind of provider says where to look first: at the server behind the endpoint, in the vendor's
table, or in that table under the name that a Bedrock identifier stands for. What is not found there
is looked up in the tables of all vendors, and a model that is in none of them gets the defaults. -/

namespace Parley.Model

/-- The kinds of provider whose server can be asked. -/
def isServed (provider : Option String) : Bool :=
  provider == some "ollama" || provider == some "openai-compatible"

/-- The model that a provider's own table knows. -/
def ofProvider? (name : String) (provider : Option String) : Option Model :=
  if provider = some "anthropic" then anthropic? name
  else if provider = some "bedrock" then (anthropic? (ofBedrock name)).map fun m => { m with name }
  else none

/-- The model from tables alone. -/
def fromTables (name : String) (provider : Option String) : Model :=
  (ofProvider? name provider).getD (static name)

/-- What is known about a model of a provider. An empty endpoint is no endpoint. -/
def resolve (name : String) (provider endpoint : Option String) (d : Directory) :
    Except Fault Model × Directory :=
  let address := endpoint.getD ""
  if isServed provider && !address.isEmpty then
    match lookup name address d with
    | (.error fault, d) => (.error fault, d)
    | (.ok (some found), d) => (.ok found, d)
    | (.ok none, d) => (.ok (static name), d)
  else (.ok (fromTables name provider), d)

end Parley.Model
