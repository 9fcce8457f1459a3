import DataBridge.Json.Basic
import DataBridge.Package.Settings
import DataBridge.Text.Parts

/-!
# Build files of a package

The files that build the module and the installable package.
-/

namespace DataBridge.Package

def packageJson (settings : Settings) : String :=
  Json.pretty (.object
    [("name", settings.datamodel.objectName),
      ("version", settings.metadata.version),
      ("description",
        .string ("implementation of exOS data exchange defined by datatype " ++
          settings.name ++
          " from file " ++ settings.sourceFile)),
      ("main", settings.scriptFile),
      ("scripts",
        .object [("start", .string ("node " ++ settings.scriptFile))]),
      ("author", "your name"),
      ("license", "MIT")]) ++ "\n"

def packageLock (settings : Settings) : String :=
  Json.pretty (.object
    [("name", settings.datamodel.objectName),
      ("version", settings.metadata.version),
      ("lockfileVersion", .number 1)]) ++ "\n"

def bindingLines (settings : Settings) : Source :=
  [.plain 0 r"{",
    .plain 0 "  \"targets\": [",
    .plain 0 r"    {",
    .plain 0 ("      \"target_name\": \"l_" ++ settings.name ++ "\","),
    .plain 0 "      \"sources\": [",
    .plain 0 ("        \"" ++ settings.moduleFile ++ "\""),
    .plain 0 "      ],",
    .plain 0 "      \"include_dirs\": [",
    .plain 0 "        '/usr/include'",
    .plain 0 "      ],",
    .plain 0 r"      'link_settings': {",
    .plain 0 "        'libraries': [",
    .plain 0 "          '-lexos-api',",
    .plain 0 "          '-lzmq'",
    .plain 0 "        ]",
    .plain 0 r"      }",
    .plain 0 r"    }",
    .plain 0 "  ]",
    .plain 0 r"}"]

/-- The three numbers of a version, which are whatever stands between its
points.  Numbers after the third are left out. -/
structure VersionParts where
  major : String
  minor : String
  patch : String
deriving DecidableEq, Repr

/-- The numbers of a version.  Missing ones are filled in. -/
def VersionParts.ofVersion (version : String) : VersionParts :=
  let parts := Text.split '.' version
  { major := parts[0]?.getD "1", minor := parts[1]?.getD "0",
    patch := parts[2]?.getD "0" }

/-- The reference to a variable of the build. -/
def buildVariable (name : String) : String :=
  r"${" ++ name ++ r"}"

/-- The setting of a variable of the build. -/
def setVariable (name value : String) : Line :=
  .plain 0 ("set(" ++ name ++ " " ++ value ++ ")")

/-- The description of the installable package. -/
def installLines (settings : Settings) : Source :=
  let lower := settings.lower
  let upper := Text.upper settings.name
  let version := VersionParts.ofVersion settings.metadata.version
  let destination := settings.destination
  [.plain 0 ("project(" ++ lower ++ ")"),
    .plain 0 "cmake_minimum_required(VERSION 3.0)",
    .blank,
    .plain 0 ("set(" ++ upper ++ "_MODULE_FILES"),
    .plain 1 settings.nodeModule,
    .plain 1 settings.scriptFile,
    .plain 1 "package.json",
    .plain 1 "package-lock.json)",
    .blank,
    .plain 0 ("install(FILES " ++ buildVariable (upper ++ "_MODULE_FILES") ++
      " DESTINATION " ++
      destination ++ ")"),
    .plain 0 ("install(DIRECTORY node_modules DESTINATION " ++
      destination ++ "/)"),
    .blank,
    setVariable "CPACK_GENERATOR" "\"DEB\"",
    setVariable "CPACK_PACKAGE_NAME" ("exos-comp-" ++ lower),
    setVariable "CPACK_PACKAGE_DESCRIPTION_SUMMARY"
      ("\"" ++ lower ++ " summary\""),
    setVariable "CPACK_PACKAGE_DESCRIPTION"
      ("\"" ++ settings.metadata.description.getD "Some description" ++ "\""),
    setVariable "CPACK_PACKAGE_VENDOR" "\"Your Organization\"",
    .blank,
    setVariable "CPACK_PACKAGE_VERSION_MAJOR" version.major,
    setVariable "CPACK_PACKAGE_VERSION_MINOR" version.minor,
    setVariable "CPACK_PACKAGE_VERSION_PATCH" version.patch,
    setVariable "CPACK_PACKAGE_FILE_NAME"
      ("exos-comp-" ++ lower ++ "-" ++
        buildVariable "CPACK_PACKAGE_VERSION_MAJOR" ++ "." ++
        buildVariable "CPACK_PACKAGE_VERSION_MINOR" ++ "." ++
        buildVariable "CPACK_PACKAGE_VERSION_PATCH"),
    setVariable "CPACK_DEBIAN_PACKAGE_MAINTAINER" "\"your name\"",
    .blank,
    setVariable "CPACK_DEBIAN_PACKAGE_SHLIBDEPS" "ON",
    .blank,
    .plain 0 "include(CPack)"]

/-- The lines that end the build script when the command before them failed. -/
def stopOnFailure (body : Source) : Source :=
  .plain 0 "if [ \"$?\" -ne 0 ] ; then" :: body ++ [.plain 0 "fi", .blank]

/-- The lines of one step of building the installable package. -/
def packageStep (number : Nat) (command : String) : Source :=
  .plain 0 command ::
    stopOnFailure [.plain 1 "cd ..", .plain 1 ("finalize " ++ toString number)]

/-- The build script.  Without packaging it stops once the module is built. -/
def scriptLines (packaging : Packaging) : Source :=
  [.plain 0 "#!/bin/sh",
    .blank,
    .plain 0 "rm -f l_*.node",
    .plain 0 "rm -f *.deb",
    .blank,
    .plain 0 r"finalize() {",
    .plain 1 "rm -rf build/*",
    .plain 1 "rm -rf node_modules/*",
    .plain 1 "rm -f Makefile",
    .plain 1 "sync",
    .plain 1 "exit $1",
    .plain 0 r"}",
    .blank,
    .plain 0 "npm install"] ++
  stopOnFailure [.plain 1 "finalize 1"] ++
  [.plain 0 "cp -f build/Release/l_*.node .",
    .blank] ++
  (match packaging with
  | .none => []
  | .deb =>
      [.plain 0
        ("mkdir -p node_modules #make sure the folder exists even if no submodules " ++
          "are needed"),
        .blank,
        .plain 0 "rm -rf build/*",
        .plain 0 "cd build",
        .blank] ++
      packageStep 2 "cmake -Wno-dev .." ++
      packageStep 3 "cpack" ++
      [.plain 0 "cp -f exos-comp-*.deb ..",
        .blank,
        .plain 0 "cd ..",
        .blank]) ++
  [.plain 0 "finalize 0"]

end DataBridge.Package
