import TestDispatch.Project.Model
import TestDispatch.Config.Settings
import TestDispatch.Json.Value
import TestDispatch.Task.Error
/-! Task descriptions: every accepted test class of an included module becomes a task with a
unique name and two files in the work directory, the `.isolate` file listing what to ship. -/
namespace TestDispatch.Task

open TestDispatch.Fs TestDispatch.Project TestDispatch.Classfile TestDispatch.Json

def classpathSeparator : String := ":"

def compiledDirs : List String := ["test-classes", "classes"]

structure PackagedTest where
  name : String
  isolateFile : Path
  genFile : Path
deriving DecidableEq, Repr

/-- A path relative to the root, with forward slashes: its bytes read as text, each invalid
UTF-8 subpart replaced by U+FFFD, then every `\` turned into `/`. -/
def relative (root path : Path) : String :=
  (Text.Utf8.lossy (Text.Utf8.bytes ((path.stripPrefix? root).getD path).text)).map
    fun c => if c = '\\' then '/' else c

def relativeDir (root path : Path) : String :=
  let rel := relative root path
  if rel.endsWith "/" then rel else rel ++ "/"

def appendNew (acc : List String) (xs : List String) : List String :=
  xs.foldl (fun acc x => if acc.contains x then acc else acc ++ [x]) acc

/-- The files shipped with the tests of a module. -/
def moduleFiles (t : Tree) (cwd : List String) (model : ProjectModel) (m : Module) : List String :=
  let root := model.root
  let dirs := compiledDirs.filterMap fun d =>
    let p := m.outputDir.join d
    if t.isDir cwd p.text then some (relativeDir root p) else none
  let own := m.sourceArtifacts.map (relative root)
  let others := (model.modules.filter fun o => o.root.components ≠ m.root.components).flatMap
    fun o => o.sourceArtifacts.map (relative root)
  let testJars := model.includedModules.flatMap fun i => i.testArtifacts.map (relative root)
  appendNew [] (dirs ++ own ++ others ++ testJars)

/-- The first free name among `base`, `base@module`, `base@module.2`, `base@module.3`, ... -/
def uniqueName (used : List String) (base moduleName : String) : String :=
  if !used.contains base then base
  else
    let qualified := s!"{base}@{moduleName}"
    let rec go : Nat → Nat → String
      | 0, _ => qualified
      | fuel + 1, n =>
        let candidate := if n = 1 then qualified else s!"{qualified}.{n}"
        if used.contains candidate then go fuel (n + 1) else candidate
    go (used.length + 1) 1

structure TaskPackager where
  java : String
  junitRunner : String
deriving DecidableEq, Repr

namespace TaskPackager

def ofConfig (c : Config.Settings) : TaskPackager := ⟨c.java, c.junitRunner⟩

def command (p : TaskPackager) (files : List String) (className : String) : List String :=
  [p.java, "-cp", classpathSeparator.intercalate files, p.junitRunner, className]

def isolateDoc (p : TaskPackager) (files : List String) (className : String) : Value :=
  .obj [("variables", .obj [("command", strings (p.command files className)), ("files", strings files)])]

def genDoc (root isolateFile isolatedFile : Path) : Value :=
  .obj [("version", .num 1), ("dir", .str root.text),
    ("args", strings ["-i", isolateFile.text, "-s", isolatedFile.text])]

def writeTask (p : TaskPackager) (t : Tree) (cwd : List String) (root workDir : Path) (name : String)
    (c : ClassDescriptor) (files : List String) : Except PipelineError (Tree × PackagedTest) := do
  let isolateFile := workDir.join s!"{name}.isolate"
  let isolatedFile := workDir.join s!"{name}.isolated"
  let genFile := workDir.join s!"{name}.isolated.gen.json"
  let t ← (t.writeFile cwd isolateFile.text
    (Text.Utf8.bytes ((p.isolateDoc files c.className).pretty 0))).mapError .io
  let t ← (t.writeFile cwd genFile.text
    (Text.Utf8.bytes ((genDoc root isolateFile isolatedFile).pretty 0))).mapError .io
  pure (t, ⟨name, isolateFile, genFile⟩)

/-- Package one test class of a module: name it against the names used so far and write its
two files. -/
def packageClass (p : TaskPackager) (cwd : List String) (root workDir : Path) (moduleName : String)
    (files : List String) (acc : Tree × List String × List PackagedTest) (c : ClassDescriptor) :
    Except PipelineError (Tree × List String × List PackagedTest) := do
  let (t, used, done) := acc
  let name := uniqueName used c.className moduleName
  let (t, test) ← p.writeTask t cwd root workDir name c files
  pure (t, used ++ [name], done ++ [test])

def packageModule (p : TaskPackager) (cwd : List String) (model : ProjectModel) (workDir : Path)
    (acc : Tree × List String × List PackagedTest) (m : Module) :
    Except PipelineError (Tree × List String × List PackagedTest) :=
  if m.testClasses.isEmpty then .ok acc
  else
    m.testClasses.foldlM
      (p.packageClass cwd model.root workDir m.name (moduleFiles acc.1 cwd model m)) acc

/-- Package every accepted test of every included module, in module then class order. -/
def package (p : TaskPackager) (t : Tree) (cwd : List String) (model : ProjectModel) (workDir : Path) :
    Except PipelineError (Tree × List PackagedTest) :=
  (model.includedModules.foldlM (p.packageModule cwd model workDir) (t, [], [])).map
    fun (t, _, done) => (t, done)

end TaskPackager

end TestDispatch.Task
