import CodeNav.Text.Blank

/-!
# The context of a call

Names and values that a user has chosen for the calls on sessions and repositories: which server to
start, for which platform, and which access token to use. A value that is blank counts as absent.

## Main definitions

* `Context`: the chosen values
* `Context.get?`: a value without surrounding blanks
* `Context.serverPath?`, `Context.sdkPath?`, `Context.target?`, `Context.toolchain?`,
  `Context.accessToken?`: the values that have a meaning
-/

namespace CodeNav

/-- Chosen values under their names; the latest value of a name comes first. -/
structure Context where
  values : List (String × String)
  deriving DecidableEq, Inhabited

namespace Context

/-- Nothing is chosen. -/
def empty : Context := ⟨[]⟩

/-- A value under a name, in place of an earlier one. -/
def insert (c : Context) (name value : String) : Context :=
  ⟨(name, value) :: c.values⟩

/-- The values of a list of pairs, of which later ones count. -/
def ofList (pairs : List (String × String)) : Context :=
  pairs.foldl (fun c (name, value) => c.insert name value) empty

/-- The value under a name, without surrounding blanks, unless it is blank. -/
def get? (c : Context) (name : String) : Option String :=
  (c.values.lookup name).bind fun value =>
    let value := Text.trimmed value
    if value = "" then none else some value

/-- The server to start. -/
def serverPath? (c : Context) : Option String := c.get? "serverPath"

/-- Where the platform's libraries are, under either spelling of its name. -/
def sdkPath? (c : Context) : Option String :=
  (c.get? "SDKPath").orElse fun _ => c.get? "sdkPath"

/-- The platform. -/
def target? (c : Context) : Option String := c.get? "target"

/-- The toolchain that the server should use. -/
def toolchain? (c : Context) : Option String := c.get? "toolchain"

/-- The access token of the code host. -/
def accessToken? (c : Context) : Option String := c.get? "accessToken"

end Context

end CodeNav
