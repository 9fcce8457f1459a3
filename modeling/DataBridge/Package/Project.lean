import DataBridge.Package.Build
import DataBridge.Package.Script

/-!
# The files of a package

The files that make the component known to the automation project, and every
file of a component's package with its path below the component's directory.
-/

namespace DataBridge.Package

/-- The files of the component's directory, in listed order. -/
def listedFiles (settings : Settings) : List String :=
  let installed := settings.packaging = .deb
  ["build.sh"] ++
  (if installed then ["CMakeLists.txt"] else []) ++
  [settings.scriptFile, settings.nodeModule, "package.json",
    "package-lock.json", "binding.gyp", settings.headerFile,
    settings.moduleFile] ++
  (if installed then [settings.debFile] else [])

def listLines (settings : Settings) : Source :=
  [.plain 0 "<?xml version=\"1.0\" encoding=\"utf-8\"?>",
    .plain 0 "<?AutomationStudio FileVersion=\"4.9\"?>",
    .plain 0
      ("<Package SubType=\"exosLinuxPackage\" PackageType=\"exosLinuxPackage\" " ++
      "xmlns=\"http://br-automation.co.at/AS/Package\">"),
    .plain 0 "  <Objects>"] ++
  (listedFiles settings).map (fun file =>
    .plain 0 ("    <Object Type=\"File\">" ++ file ++ "</Object>")) ++
  [.plain 0 "  </Objects>",
    .plain 0 "</Package>"]

def fileLine (name file : String) : Line :=
  .plain 1 ("<File Name=\"" ++ name ++ "\" FileName=\"Linux\\" ++ file ++
    "\" Type=\"Project\"/>")

/-- A command that runs before the component starts. -/
def prerunLine (command : String) : Line :=
  .plain 1 ("<Installation Type=\"Prerun\" Command=\"" ++ command ++ "\"/>")

/-- The files that the build depends on. -/
def dependencies (settings : Settings) : List String :=
  (if settings.packaging = .deb then ["CMakeLists.txt"] else []) ++
    [settings.headerFile, settings.moduleFile, "binding.gyp", "package.json",
      "package-lock.json"]

def componentLines (settings : Settings) : Source :=
  let name := settings.name
  let destination := settings.destination
  [.plain 0 "<?xml version=\"1.0\" encoding=\"utf-8\"?>",
    .plain 0 ("<ComponentPackage Version=\"" ++ settings.metadata.version ++
      "\" ErrorHandling=\"Ignore\" StartupTimeout=\"0\">"),
    .plain 1 ("<Service Name=\"" ++ name ++
      " Runtime Service\" Executable=\"/usr/bin/npm\" " ++
      "Arguments=\"start --prefix " ++ destination ++ "/\"/>"),
    .plain 1 ("<DatamodelInstance Name=\"" ++ name ++ "\"/>")] ++
  (match settings.packaging with
  | .deb => [fileLine ("exos-comp-" ++ settings.lower) settings.debFile]
  | .none =>
      [fileLine "node-module" settings.nodeModule,
        prerunLine ("mkdir -p " ++ destination ++ "/ &amp;&amp; cp -f " ++
          settings.nodeModule ++
          " " ++ destination ++ "/")]) ++
  [fileLine "main-script" settings.scriptFile,
    prerunLine ("yes | cp -f " ++ settings.scriptFile ++ " " ++
      destination ++ "/"),
    .plain 1 "<Build>",
    .plain 2 ("<BuildCommand Command=\"C:\\Windows\\Sysnative\\wsl.exe\" " ++
      "WorkingDirectory=\"Linux\" Arguments=\"--distribution Debian --exec ./build.sh\">")] ++
  (dependencies settings).map (fun file =>
    .plain 3 ("<Dependency FileName=\"Linux\\" ++ file ++ "\"/>")) ++
  [.plain 2 "</BuildCommand>",
    .plain 1 "</Build>",
    .plain 0 "</ComponentPackage>"]

/-- A file of the package: its path and its text. -/
abbrev File := String × String

/-- The files of the package, the description of the installable package only
where there is one. -/
def files (settings : Settings) : List File :=
  [(settings.name ++ ".exospkg", (componentLines settings).render),
    ("Linux/Linux.pkg", (listLines settings).render),
    ("Linux/package.json", packageJson settings),
    ("Linux/package-lock.json", packageLock settings),
    ("Linux/binding.gyp", (bindingLines settings).render),
    ("Linux/build.sh", (scriptLines settings.packaging).render),
    ("Linux/" ++ settings.scriptFile,
      (applicationLines settings.datamodel).render)] ++
  match settings.packaging with
  | .deb => [("Linux/CMakeLists.txt", (installLines settings).render)]
  | .none => []

end DataBridge.Package
