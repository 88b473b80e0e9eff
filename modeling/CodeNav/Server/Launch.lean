import CodeNav.Config.Basic
import CodeNav.Context
import CodeNav.Path

/-!
# How a language server is started

The server that the context names is preferred to the configured one, and that to the usual one. The
platform and its libraries are handed on as compiler flags, the toolchain as a variable.

## Main definitions

* `LaunchSpec`: what to start, with which arguments and variables, and where
* `LaunchSpec.of`: the specification for a context and a configuration
-/

namespace CodeNav

/-- What to start. -/
structure LaunchSpec where
  command : String
  args : List String
  env : List (String × String)
  folder : Path
  deriving DecidableEq, Inhabited

/-- A flag and its value, each handed on to the compiler. -/
def compilerFlag (flag value : String) : List String :=
  ["-Xswiftc", flag, "-Xswiftc", value]

/-- The variable that names the toolchain. -/
def toolchainVariable : String := "SOURCEKIT_TOOLCHAIN_PATH"

/-- How a server is started in a folder. -/
def LaunchSpec.of (context : Context) (server : ServerConfig) (usualCommand : String)
    (folder : Path) : LaunchSpec where
  command := (context.serverPath?.orElse fun _ => server.command).getD usualCommand
  args := server.args
    ++ ((context.sdkPath?.map (compilerFlag "-sdk")).getD [])
    ++ ((context.target?.map (compilerFlag "-target")).getD [])
  env :=
    match context.toolchain? with
    | some toolchain =>
      server.env.filter (fun v => v.1 ≠ toolchainVariable) ++ [(toolchainVariable, toolchain)]
    | none => server.env
  folder := folder

end CodeNav
