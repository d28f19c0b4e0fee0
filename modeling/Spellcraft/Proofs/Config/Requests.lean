import Spellcraft.Proofs.Config.Layers

/-! # A row of requests to a loader

A source may give a different answer to each request that reaches it, and some of them may be
errors. None of this shows: whatever a loader is asked, and in whatever order, it asks its source
at most once and answers from the one table that this gave it.

* `LoaderRequest.Replies` — the right replies to a request, each field read off the table;
* `Loader.loader_serve`, `Loader.value_serve` — what one request does to a loader;
* `Loader.loader_serveAll` — a row of requests does no more than its first one that needs a table;
* `Loader.serveAll_ofSource` — the row as a whole: how often the source was asked, and each reply.
-/

namespace Spellcraft

inductive LoaderRequest where
  | load
  | get (spell : String)
  | hasConfig (spell : String)
  | resolve (spell : String) (params : Parameters) (own : SpellConfig)
  | isLoaded

inductive LoaderReply where
  | table (table : OverrideTable)
  | config (config : SpellConfig)
  | known (known : Bool)
  | loaded (loaded : Bool)

namespace LoaderRequest

def needsTable : LoaderRequest → Bool
  | isLoaded => false
  | _ => true

/-- The reply that a table makes to a request, if it `loaded` before. -/
def reply (table : OverrideTable) (loaded : Bool) : LoaderRequest → LoaderReply
  | load => .table table
  | get spell => .config (((table.find? spell).map OverrideRecord.config).getD .zero)
  | hasConfig spell => .known (table.find? spell).isSome
  | resolve spell params own => .config (Loader.layered table spell params own)
  | isLoaded => .loaded loaded

/-- What a table has to reply. Of every field a number of the caller comes first, then what the
    record of the spell names, then the spell's own value, or zero if none is given. -/
inductive Replies (table : OverrideTable) (loaded : Bool) : LoaderRequest → LoaderReply → Prop
  | load : Replies table loaded load (.table table)
  | get {spell : String} {config : SpellConfig}
      (fields : ∀ f, config.value f = (table.field? spell f).getD (SpellConfig.zero.value f)) :
      Replies table loaded (get spell) (.config config)
  | hasConfig {spell : String} {known : Bool} (filed : known = true ↔ spell ∈ table.keys) :
      Replies table loaded (hasConfig spell) (.known known)
  | resolve {spell : String} {params : Parameters} {own config : SpellConfig}
      (fields : ∀ f, config.value f =
        ((params.find? f.key).bind f.kind.normalize).getD
          ((table.field? spell f).getD (own.value f))) :
      Replies table loaded (resolve spell params own) (.config config)
  | isLoaded : Replies table loaded isLoaded (.loaded loaded)

theorem replies_reply (table : OverrideTable) (loaded : Bool) (request : LoaderRequest) :
    Replies table loaded request (request.reply table loaded) := by
  cases request with
  | load => exact .load
  | get spell =>
    refine .get fun f => ?_
    rw [OverrideTable.field?]
    cases table.find? spell with
    | none => rfl
    | some record => exact record.value_config f
  | hasConfig spell => exact .hasConfig Entries.contains_iff
  | resolve spell params own => exact .resolve (Loader.value_layered table spell params own)
  | isLoaded => exact .isLoaded

end LoaderRequest

namespace Loader

def serve (l : Loader) : LoaderRequest → Answer LoaderReply
  | .load => ⟨.table l.load.value, l.load.loader, l.load.notices⟩
  | .get spell => ⟨.config (l.get spell).value, (l.get spell).loader, (l.get spell).notices⟩
  | .hasConfig spell =>
    ⟨.known (l.hasConfig spell).value, (l.hasConfig spell).loader, (l.hasConfig spell).notices⟩
  | .resolve spell params own =>
    let answer := l.resolve spell params own
    ⟨.config answer.value, answer.loader, answer.notices⟩
  | .isLoaded => ⟨.loaded l.isLoaded, l, []⟩

def serveAll (l : Loader) : List LoaderRequest → Answer (List LoaderReply)
  | [] => ⟨[], l, []⟩
  | request :: rest =>
    let first := l.serve request
    let others := first.loader.serveAll rest
    ⟨first.value :: others.value, others.loader, first.notices ++ others.notices⟩

/-! ## Loading -/

theorem load_load (l : Loader) : l.load.loader.load = ⟨l.load.value, l.load.loader, []⟩ :=
  load_of_table? (table?_load l)

theorem isLoaded_load (l : Loader) : l.load.loader.isLoaded = true := by
  rw [isLoaded, table?_load]
  rfl

/-- The table of a loader that has not asked yet: the first answer of its source, or nothing. -/
theorem value_load_ofSource (source : TableSource) :
    (ofSource source).load.value = (source 0).toOption.getD Record.empty := by
  change (settle (source 0)).1 = _
  cases source 0 with
  | ok table => rfl
  | error e => cases e <;> rfl

/-! ## One request -/

theorem loader_serve (l : Loader) (request : LoaderRequest) :
    (l.serve request).loader = if request.needsTable = true then l.load.loader else l := by
  cases request <;> rfl

theorem value_serve (l : Loader) (request : LoaderRequest) :
    (l.serve request).value = request.reply l.load.value l.isLoaded := by
  cases request <;> rfl

/-! ## A row of requests -/

/-- Only the first request that needs the table changes the loader. -/
theorem loader_serveAll (l : Loader) (requests : List LoaderRequest) :
    (l.serveAll requests).loader =
      if requests.any LoaderRequest.needsTable = true then l.load.loader else l := by
  induction requests generalizing l with
  | nil => rfl
  | cons request rest ih =>
    change ((l.serve request).loader.serveAll rest).loader = _
    rw [ih, loader_serve]
    cases needed : request.needsTable <;> simp [needed, load_load]

/-- Whatever was asked before, the table stays the one that would be loaded now. -/
theorem value_load_serveAll (l : Loader) (requests : List LoaderRequest) :
    (l.serveAll requests).loader.load.value = l.load.value := by
  rw [loader_serveAll]
  split
  · rw [load_load]
  · rfl

theorem isLoaded_serveAll (l : Loader) (requests : List LoaderRequest) :
    (l.serveAll requests).loader.isLoaded =
      (l.isLoaded || requests.any LoaderRequest.needsTable) := by
  rw [loader_serveAll]
  split <;> simp [*, isLoaded_load]

theorem length_serveAll (l : Loader) (requests : List LoaderRequest) :
    (l.serveAll requests).value.length = requests.length := by
  induction requests generalizing l with
  | nil => rfl
  | cons request rest ih => exact congrArg (· + 1) (ih _)

theorem value_serveAll_append (l : Loader) (before after : List LoaderRequest) :
    (l.serveAll (before ++ after)).value =
      (l.serveAll before).value ++ ((l.serveAll before).loader.serveAll after).value := by
  induction before generalizing l with
  | nil => rfl
  | cons request rest ih => exact congrArg ((l.serve request).value :: ·) (ih _)

/-- The reply in the place of a request depends on the requests before it only by whether the
    table is loaded. -/
theorem reply_serveAll (l : Loader) (before after : List LoaderRequest)
    (request : LoaderRequest) :
    (l.serveAll (before ++ request :: after)).value[before.length]? =
      some (request.reply l.load.value
        (l.isLoaded || before.any LoaderRequest.needsTable)) := by
  have here := value_serve (l.serveAll before).loader request
  rw [value_load_serveAll, isLoaded_serveAll] at here
  rw [value_serveAll_append, ← length_serveAll l before, List.getElem?_append_right (Nat.le_refl _),
    Nat.sub_self, ← here]
  rfl

/-- A row of requests that was answered from one table, loaded when it was first needed. -/
structure ServedFrom (table : OverrideTable) (requests : List LoaderRequest)
    (run : Answer (List LoaderReply)) : Prop where
  asked : run.loader.asked = if requests.any LoaderRequest.needsTable = true then 1 else 0
  isLoaded : run.loader.isLoaded = requests.any LoaderRequest.needsTable
  answered : run.value.length = requests.length
  reply : ∀ before request after, requests = before ++ request :: after →
    run.value[before.length]? =
      some (request.reply table (before.any LoaderRequest.needsTable))
  replies : ∀ request loaded, LoaderRequest.Replies table loaded request
    (request.reply table loaded)

/-- Replies of the empty table: nothing is known of any spell. -/
structure RepliesBare (spell : String) (params : Parameters) (own : SpellConfig)
    (loaded : Bool) : Prop where
  resolve : (LoaderRequest.resolve spell params own).reply Record.empty loaded =
    .config (own.withOverrides params)
  get : (LoaderRequest.get spell).reply Record.empty loaded = .config .zero
  hasConfig : (LoaderRequest.hasConfig spell).reply Record.empty loaded = .known false

/-- Whatever a source would answer to later requests, a loader asks it once, at the first request
    that needs the table, and every reply is that of the table it then gave, or of the empty one
    if it failed. -/
theorem serveAll_ofSource (source : TableSource) (requests : List LoaderRequest) :
    ServedFrom ((source 0).toOption.getD Record.empty) requests
        ((ofSource source).serveAll requests) ∧
      ∀ spell params own loaded, RepliesBare spell params own loaded := by
  refine ⟨⟨?_, ?_, length_serveAll _ requests, ?_, ?_⟩, fun _ _ _ _ => ⟨rfl, rfl, rfl⟩⟩
  · rw [loader_serveAll]
    split <;> rfl
  · exact isLoaded_serveAll _ requests
  · rintro before request after rfl
    rw [← value_load_ofSource]
    exact reply_serveAll _ before after request
  · exact fun request loaded => request.replies_reply _ loaded

/-- A source that fails first is not asked again, though it would answer then. -/
example :
    ((ofSource fun n => if n = 0 then .error (.notFound "table") else
      .ok (.ofList [("ember", {})])).serveAll
        [.isLoaded, .hasConfig "ember", .isLoaded, .hasConfig "ember"]).value =
      [.loaded false, .known false, .loaded true, .known false] := by
  rfl

end Loader

end Spellcraft
