import ParseMarkup.Dump.Depth

/-!
# Settings of a dump

A document names a stylesheet right after its prologue, and may be limited in depth. By default
it names `tree.xsl` and has no limit.
-/

namespace ParseMarkup

/-- The stylesheet that a document names. -/
structure Stylesheet where
  /-- The target of the processing instruction. -/
  target : String := "xml-stylesheet"
  /-- Where the stylesheet is. -/
  href : String := "tree.xsl"
  /-- Its media type. -/
  mime : String := "text/xsl"
  deriving DecidableEq, Repr

/-- The data of the processing instruction: `href="H" type="M"`, written as they are. -/
def Stylesheet.data (s : Stylesheet) : String :=
  "href=\"" ++ s.href ++ "\" type=\"" ++ s.mime ++ "\""

/-- The settings of a dump. -/
structure DumpConfig where
  /-- The stylesheet to name. -/
  stylesheet : Stylesheet := {}
  /-- The greatest depth that a node may have; the root is at depth 1. -/
  maxDepth : UInt64 := Depth.unlimited
  deriving DecidableEq, Repr

namespace DumpConfig

/-- The settings of a plain dump. -/
def default : DumpConfig := {}

/-- The same settings with another stylesheet target. -/
def withTarget (config : DumpConfig) (target : String) : DumpConfig :=
  { config with stylesheet := { config.stylesheet with target } }

/-- The same settings with another place of the stylesheet. -/
def withHref (config : DumpConfig) (href : String) : DumpConfig :=
  { config with stylesheet := { config.stylesheet with href } }

/-- The same settings with another media type of the stylesheet. -/
def withMime (config : DumpConfig) (mime : String) : DumpConfig :=
  { config with stylesheet := { config.stylesheet with mime } }

/-- The same settings with another limit. -/
def withMaxDepth (config : DumpConfig) (maxDepth : UInt64) : DumpConfig :=
  { config with maxDepth }

end DumpConfig

end ParseMarkup
