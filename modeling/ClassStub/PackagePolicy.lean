import ClassStub.AccessFlags
import ClassStub.ClassName

/-!
# Package policies

A policy says which packages may appear in an API.  With no packages given it is
open: every package is allowed, and declarations that are visible only inside
their package count as API.  Otherwise it is declared: the given packages and
those of the base module are allowed, and package-private declarations do not
count.
-/

namespace ClassStub

/-- The packages that the base module exports, always allowed. -/
def basePackages : List String :=
  ["java.io", "java.lang", "java.lang.annotation", "java.lang.constant", "java.lang.invoke",
    "java.lang.module", "java.lang.ref", "java.lang.reflect", "java.lang.runtime", "java.math",
    "java.net", "java.net.spi", "java.nio", "java.nio.channels", "java.nio.channels.spi",
    "java.nio.charset", "java.nio.charset.spi", "java.nio.file", "java.nio.file.attribute",
    "java.nio.file.spi", "java.security", "java.security.acl", "java.security.cert",
    "java.security.interfaces", "java.security.spec", "java.text", "java.text.spi", "java.time",
    "java.time.chrono", "java.time.format", "java.time.temporal", "java.time.zone", "java.util",
    "java.util.concurrent", "java.util.concurrent.atomic", "java.util.concurrent.locks",
    "java.util.function", "java.util.jar", "java.util.random", "java.util.regex", "java.util.spi",
    "java.util.stream", "java.util.zip", "javax.crypto", "javax.crypto.interfaces",
    "javax.crypto.spec", "javax.net", "javax.net.ssl", "javax.security.auth",
    "javax.security.auth.callback", "javax.security.auth.login", "javax.security.auth.spi",
    "javax.security.auth.x500", "javax.security.cert"]

/-- The packages that a policy declares, in order and without repetition; none
for an open policy. -/
structure PackagePolicy where
  packages : List String
  deriving DecidableEq

namespace PackagePolicy

/-- The policy that declares packages; of a repeated one the first is kept. -/
def ofList (packages : List String) : PackagePolicy where
  packages := packages.eraseDups

/-- Whether every package is allowed. -/
def isOpen (policy : PackagePolicy) : Bool :=
  policy.packages.isEmpty

/-- Whether a package may appear in the API. -/
def allows (policy : PackagePolicy) (package : String) : Bool :=
  policy.isOpen || basePackages.contains package || policy.packages.contains package

/-- Whether the class with a dotted name may appear in the API. -/
def allowsClass (policy : PackagePolicy) (binaryName : String) : Bool :=
  policy.allows (ClassName.packageName binaryName)

/-- Whether a declaration with access flags counts as API. -/
def isVisible (policy : PackagePolicy) (flags : AccessFlags) : Bool :=
  match Visibility.ofFlags flags with
  | .publicAccess | .protectedAccess => true
  | .packageAccess => policy.isOpen
  | .privateAccess => false

end PackagePolicy

end ClassStub
