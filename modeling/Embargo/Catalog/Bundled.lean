import Embargo.Text

/-!
# The catalogs that come with the library

Each entry is a catalog by its name. They forbid methods whose results hang on the platform's
defaults, internal classes, reflection, and writing to the console.
-/

namespace Embargo.Catalog

/-- Internal classes, up to release 8. -/
def jdkInternal8 : List String :=
  ["# Non-public runtime internals.",
   "",
   "@defaultMessage Non-public internal runtime class",
   "sun.**",
   "com.sun.proxy.**",
   "jdk.internal.**" ]

/-- Access to members around the checks of the language. -/
def jdkReflection : List String :=
  ["# Reflective access that breaks encapsulation.",
   "",
   "@ignoreUnresolvable",
   "@defaultMessage Do not bypass access checks",
   "java.lang.reflect.AccessibleObject#setAccessible(boolean)",
   "java.lang.reflect.AccessibleObject#setAccessible(java.lang.reflect.AccessibleObject[],boolean)",
   "java.lang.Class#getDeclaredField(java.lang.String)",
   "java.lang.Class#getDeclaredMethod(java.lang.String,java.lang.Class[])" ]

/-- Writing to the console. -/
def jdkSystemOut : List String :=
  ["# Writing to the console instead of a logger.",
   "",
   "@ignoreUnresolvable",
   "@defaultMessage Use a logger instead of the console",
   "java.lang.System#out",
   "java.lang.System#err",
   "java.lang.Throwable#printStackTrace()" ]

/-- Methods that depend on the platform's defaults, for release 8. -/
def jdkUnsafe8 : List String :=
  ["# Methods and constructors that depend on the platform's default locale,",
   "# charset or time zone.",
   "",
   "@ignoreUnresolvable",
   "",
   "@defaultMessage Uses default locale",
   "java.lang.String#toLowerCase()",
   "java.lang.String#toUpperCase()",
   "java.lang.String#format(java.lang.String,java.lang.Object[])",
   "java.text.DateFormat#getDateInstance()",
   "java.text.SimpleDateFormat#<init>(java.lang.String)",
   "java.util.Scanner#<init>(java.io.InputStream)",
   "",
   "@defaultMessage Uses default charset",
   "java.lang.String#<init>(byte[])",
   "java.lang.String#getBytes()",
   "java.io.FileReader",
   "java.io.FileWriter",
   "java.io.InputStreamReader#<init>(java.io.InputStream)",
   "java.io.OutputStreamWriter#<init>(java.io.OutputStream)",
   "",
   "@defaultMessage Uses default time zone",
   "java.util.Calendar#getInstance()",
   "java.util.Date#toString()" ]

/-- Methods that depend on the platform's defaults, for release 9. -/
def jdkUnsafe9 : List String :=
  ["# Default locale/charset/time zone users, Java 9 and later.",
   "",
   "@includeBundled jdk-unsafe-1.8",
   "@ignoreUnresolvable",
   "",
   "@defaultMessage Uses default locale",
   "java.lang.Runtime$Version#toString()" ]

/-- The text of a catalog with these lines. -/
def textOfLines (lines : List String) : Text := lines.flatMap fun line => line.toText ++ "\n".toText

/-- The catalogs that come with the library, by name. -/
def bundled : List (Text × Text) :=
  [("jdk-internal-1.8".toText, textOfLines jdkInternal8),
   ("jdk-reflection".toText, textOfLines jdkReflection),
   ("jdk-system-out".toText, textOfLines jdkSystemOut),
   ("jdk-unsafe-1.8".toText, textOfLines jdkUnsafe8),
   ("jdk-unsafe-9".toText, textOfLines jdkUnsafe9)]

end Embargo.Catalog
