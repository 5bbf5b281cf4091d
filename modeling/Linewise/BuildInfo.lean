import Linewise.Bytes

/-!
# Build information

## Main definitions

* `BuildInfo` — what a build is known by.
* `BuildInfo.text` — the line that shows it.
-/

namespace Linewise

/-- **What a build is known by.** -/
structure BuildInfo where
  /-- The version. -/
  version : Bytes := utf8 "dev"
  /-- The commit it was built from. -/
  commit : Bytes := utf8 "none"
  /-- When it was built. -/
  date : Bytes := utf8 "unknown"
deriving DecidableEq, Repr

namespace BuildInfo

/-- The name of the program. -/
def program : Bytes := utf8 "codeclean"

/-- The line that shows a build. -/
def text (info : BuildInfo) : Bytes :=
  program ++ [Bytes.space] ++ info.version ++ utf8 " (commit=" ++ info.commit ++ utf8 ", date="
    ++ info.date ++ utf8 ")"

end BuildInfo

end Linewise
