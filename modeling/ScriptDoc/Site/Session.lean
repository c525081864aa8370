import ScriptDoc.Site.Page

/-!
# Session — a site at work

While a site is at work its files change, its options are replaced and its pages are made, in any
order.

- `Session`      : the site, whether it has been given options, the files, and the metadata of each
  page
- `Step`         : what can happen
- `Session.step` : one step, and what comes of it
- `Session.run`  : several steps
-/

namespace ScriptDoc

structure Session where
  site : Site := {}
  isConfigured : Bool := false
  tree : FileTree
  pages : Keyed Metadata := []

inductive Step where
  | write (path : String) (bytes : List UInt8)
  | remove (path : String)
  | configure (options : Keyed Value)
  | resolve (path : String)
  | start (file : Site.ConfigFile)
  | page (name : String) (metadata : Keyed Value) (markdown : String)

inductive Outcome where
  | changed
  | configured (report : Config.Report)
  | resolved (path name : String)
  | started (run : Site.StartRun)
  | page (run : Site.PageRun)

namespace Session

/-- Without options there is no start. -/
def start (session : Session) (file : Site.ConfigFile) : Site.StartRun :=
  if session.isConfigured then session.site.start session.tree file
  else ⟨session.site, [], some (if file = .invalid then .configFile else .unconfigured)⟩

def page (session : Session) (metadata : Metadata) (markdown : String) : Site.PageRun :=
  if session.isConfigured then session.site.page session.tree metadata markdown
  else session.site.pageUnconfigured session.tree metadata markdown

def step (session : Session) : Step → Session × Outcome
  | .write path bytes => ({ session with tree := session.tree.write path.toList bytes }, .changed)
  | .remove path => ({ session with tree := session.tree.remove path.toList }, .changed)
  | .configure options =>
      let (config, report) := Config.load options
      ({ session with site := { session.site with config := config }, isConfigured := true },
        .configured report)
  | .resolve path =>
      let resolved := session.site.resolve path
      (session, .resolved resolved (session.site.nameOf session.tree resolved))
  | .start file =>
      let run := session.start file
      ({ session with site := run.site }, .started run)
  | .page name more markdown =>
      let metadata := Metadata.merge ((session.pages.get? name).getD []) more
      let run := session.page metadata markdown
      ({ session with site := run.site, pages := Keyed.put name run.metadata session.pages },
        .page run)

def run (session : Session) : List Step → Session × List Outcome
  | [] => (session, [])
  | step :: steps =>
      let (session, outcome) := session.step step
      let (session, outcomes) := session.run steps
      (session, outcome :: outcomes)

end Session
end ScriptDoc
