import GraphScript.Proofs.RestoredGraphs

/-!
# SavedGraphs — a saved graph is loaded as it was

The text that is written for a graph is read as the graph, alone or as part of a project.

- `loads_project` — a project is read in the order of its keys; what stands next to its graph does
  not matter to it (`AddsToProject`);
- `projectText` — a project around the saved text of a graph, with texts before and after it;
- `hasField_sorted?` — sorting keeps the field that tells projects from bare graphs;
- `Graph.ofJson_toJson` — a graph that is saved and loaded is what it was.
-/

namespace GraphScript

open Json

namespace Json

/-! ## Projects -/

/-- What a text under a key adds to a project. -/
def addText (key s : String) (q : Shape.ProjectParts) : Shape.ProjectParts :=
  if key = "name" then { q with name := some s }
  else if key = "slug" then { q with slug := some s }
  else if key = "description" then { q with description := some s }
  else q

theorem adds_text {key : String} (hkey : key ≠ "graph") (s : String) (room : Nat) :
    Adds (Shape.project (format .document)) room (key, .text (some s)) (key, addText key s) := by
  have htext := loads_text "a string" room s
  by_cases hname : key = "name"
  · subst hname
    exact adds_field rfl rfl htext
  · by_cases hslug : key = "slug"
    · subst hslug
      exact adds_field rfl rfl htext
    · by_cases hdescription : key = "description"
      · subst hdescription
        exact adds_field rfl rfl htext
      · have hnone : (Shape.project (format .document)).fields.find? (·.name = key) = none := by
          simp [Shape.project, Ne.symm hname, Ne.symm hslug, Ne.symm hdescription, Ne.symm hkey]
        have hid : addText key s = id := by
          funext q
          simp [addText, hname, hslug, hdescription]
        rw [hid]
        exact adds_unknown hnone s

def addGraph (a : AuthoredGraph) (q : Shape.ProjectParts) : Shape.ProjectParts :=
  { q with graph := some a }

/-- What an entry adds to a project: its graph, or a text. -/
inductive AddsToProject (a : AuthoredGraph) :
    String × (Shape.ProjectParts → Shape.ProjectParts) → Prop
  | graph : AddsToProject a ("graph", addGraph a)
  | text {key : String} (hkey : key ≠ "graph") (s : String) :
      AddsToProject a (key, addText key s)

variable {a : AuthoredGraph} {adds : List (String × (Shape.ProjectParts → Shape.ProjectParts))}

theorem AddsToProject.isSet {add : String × (Shape.ProjectParts → Shape.ProjectParts)}
    (h : AddsToProject a add) {field : Field Reader Shape.ProjectParts}
    (hfield : field ∈ (Shape.project (format .document)).fields) (hne : field.name ≠ add.1)
    (q : Shape.ProjectParts) : field.isSet (add.2 q) = field.isSet q := by
  simp only [Shape.project, List.mem_cons, List.not_mem_nil, or_false] at hfield
  cases h with
  | graph =>
    rcases hfield with rfl | rfl | rfl | rfl
    · rfl
    · rfl
    · rfl
    · exact absurd rfl hne
  | text hkey s =>
    -- A text goes into the field of its key; under an unknown key it goes nowhere.
    simp only [addText]
    rcases hfield with rfl | rfl | rfl | rfl
    · grind
    · grind
    · grind
    · grind

/-- Only the entry of the graph sets the graph of a project. -/
theorem AddsToProject.graph_eq {add : String × (Shape.ProjectParts → Shape.ProjectParts)}
    (h : AddsToProject a add) (q : Shape.ProjectParts) :
    (add.2 q).graph = if add.1 = "graph" then some a else q.graph := by
  cases h with
  | graph => rfl
  | text hkey s =>
    rw [if_neg hkey]
    simp only [addText]
    grind

/-- After all entries the project has the graph that one of them adds. -/
theorem graph_foldl (hadds : ∀ add ∈ adds, AddsToProject a add) (q : Shape.ProjectParts)
    (h : q.graph = some a ∨ "graph" ∈ adds.map Prod.fst) :
    (adds.foldl (fun q add => add.2 q) q).graph = some a := by
  induction adds generalizing q with
  | nil => exact h.resolve_right List.not_mem_nil
  | cons add adds ih =>
    rw [List.forall_mem_cons] at hadds
    refine ih hadds.2 (add.2 q) ?_
    rw [hadds.1.graph_eq]
    by_cases hkey : add.1 = "graph"
    · exact Or.inl (if_pos hkey)
    · rw [if_neg hkey]
      rw [List.map_cons, List.mem_cons, or_iff_right (Ne.symm hkey)] at h
      exact h

/-- Everything but the graph of a project may be missing. -/
theorem finish_project {q : Shape.ProjectParts} (h : q.graph = some a) :
    ∃ p : Project, p.graph = a ∧ (Shape.project (format .document)).finish q = .ok p := by
  rcases q with ⟨name, slug, description, graph⟩
  cases h
  exact ⟨⟨name.getD "", slug.getD "", description.getD "", a⟩, rfl, rfl⟩

/-- A project is read, if its entries add a graph and texts to it. -/
theorem loads_project {room : Nat} {es : List (String × Draft)}
    (hes : List.Forall₂ (Adds (Shape.project (format .document)) room) es adds)
    (hadds : ∀ add ∈ adds, AddsToProject a add) (hgraph : "graph" ∈ adds.map Prod.fst) :
    ∃ p : Project, p.graph = a ∧
      Loads (recordOf .document (Shape.project (format .document))) (room + 1)
        (.object (Draft.asEntries es) true) p := by
  have hsorted : ∀ add ∈ sortKeys adds, AddsToProject a add :=
    fun add hadd => hadds add (mem_of_mem_sortKeys hadd)
  have hstart : ∀ field ∈ (Shape.project (format .document)).fields,
      field.isSet (Shape.project (format .document)).start = false := by
    simp [Shape.project]
  have hparts := foldlM_takeField (nodup_sortKeys adds)
    (fun add hadd field hfield hne q => (hsorted add hadd).isSet hfield hne q) hstart
  rcases finish_project (graph_foldl hsorted {} (Or.inr (mem_keys_sortKeys hgraph))) with
    ⟨p, hp, hfinish⟩
  exact ⟨p, hp, loads_record hes hparts hfinish⟩

/-! ## Texts of projects -/

/-- The text of a project: texts under their keys, and among them the text of a graph. -/
def projectText (gap : String) (before : List (String × String)) (graph : String)
    (after : List (String × String)) : String :=
  objectText gap
    (before.map (Prod.map id quote) ++ ("graph", graph) :: after.map (Prod.map id quote))

def projectFields (before : List (String × String)) (graph : Tree)
    (after : List (String × String)) : List (String × Tree) :=
  before.map (Prod.map id Tree.text) ++ ("graph", graph) :: after.map (Prod.map id Tree.text)

/-- The text of a project is parsed as the tree of the project. -/
theorem parse_projectText {gap : String} (hgap : ∀ c ∈ gap.toList, c ∈ gapChars) (t : Tree)
    (before after : List (String × String)) :
    Draft.parse (projectText gap before (pretty t) after) =
      (treeDraft (.record (projectFields before t after)), true) := by
  have htexts : ∀ es : List (String × String),
      List.Forall₂ (fun (f : String × String) (t : String × Tree) => t.1 = f.1 ∧ Stands f.2 t.2)
        (es.map (Prod.map id quote)) (es.map (Prod.map id Tree.text)) :=
    fun es => forall₂_map fun e _ => ⟨rfl, stands_quote e.2⟩
  have hfields : List.Forall₂ (fun (f : String × String) (t : String × Tree) =>
      t.1 = f.1 ∧ Stands f.2 t.2)
      (before.map (Prod.map id quote) ++ ("graph", pretty t) :: after.map (Prod.map id quote))
      (projectFields before t after) :=
    List.rel_append (htexts before) (.cons ⟨rfl, stands_pretty t⟩ (htexts after))
  exact parse_of_tokens (tokens_objectText hgap hfields)

theorem loads_projectFields {t : Tree} {a : AuthoredGraph} {room : Nat}
    (hgraph : Loads (recordOf .document (Shape.graph (format .document))) room (treeDraft t) a)
    {before after : List (String × String)} (hbefore : "graph" ∉ before.map Prod.fst)
    (hafter : "graph" ∉ after.map Prod.fst) :
    ∃ p : Project, p.graph = a ∧
      Loads (recordOf .document (Shape.project (format .document))) (room + 1)
        (treeDraft (.record (projectFields before t after))) p := by
  have hkey : ∀ es : List (String × String), "graph" ∉ es.map Prod.fst → ∀ e ∈ es, e.1 ≠ "graph" :=
    fun es hes e he hkey => hes (hkey ▸ List.mem_map_of_mem he)
  have htexts : ∀ es : List (String × String), "graph" ∉ es.map Prod.fst →
      List.Forall₂ (Adds (Shape.project (format .document)) room)
        (es.map fun e => (e.1, treeDraft (.text e.2))) (es.map fun e => (e.1, addText e.1 e.2)) :=
    fun es hes => forall₂_map fun e he => adds_text (hkey es hes e he) e.2 room
  -- What the texts beside the graph add to the project leaves its graph alone.
  have hkinds : ∀ es : List (String × String), "graph" ∉ es.map Prod.fst →
      ∀ add ∈ es.map fun e => (e.1, addText e.1 e.2), AddsToProject a add :=
    fun es hes => List.forall_mem_map.2 fun e he => .text (hkey es hes e he) e.2
  have hentry : Adds (Shape.project (format .document)) room ("graph", treeDraft t)
      ("graph", addGraph a) := adds_field rfl rfl hgraph
  have hes : List.Forall₂ (Adds (Shape.project (format .document)) room)
      ((projectFields before t after).map (Prod.map id treeDraft))
      (before.map (fun e => (e.1, addText e.1 e.2)) ++
        ("graph", addGraph a) ::
          after.map (fun e => (e.1, addText e.1 e.2))) := by
    rw [projectFields, List.map_append, List.map_cons, List.map_map, List.map_map]
    exact List.rel_append (htexts before hbefore) (.cons hentry (htexts after hafter))
  rw [treeDraft_record]
  refine loads_project hes ?_ ?_
  · exact List.forall_mem_append.2
      ⟨hkinds before hbefore, List.forall_mem_cons.2 ⟨.graph, hkinds after hafter⟩⟩
  · rw [List.map_append]
    exact List.mem_append_right _ List.mem_cons_self

/-! ## Bare graphs and projects -/

/-- A new entry adds its field, and no other field gets lost. -/
theorem hasField_insertSorted (name key : String) (d : Draft) (entries : List (Draft × Draft)) :
    (Draft.object (Draft.insertSorted key d entries) true).hasField name =
      (decide (key = name) || (Draft.object entries true).hasField name) := by
  induction entries with
  | nil => simp [Draft.insertSorted, Draft.hasField]
  | cons e entries ih =>
    rcases e with ⟨k, e⟩
    cases k with
    | text k =>
      cases k with
      | none => simpa [Draft.insertSorted, Draft.hasField] using ih
      | some k =>
        rw [Draft.insertSorted]
        split
        · rfl
        · split
          · rename_i heq
            simp [Draft.hasField, heq]
          · simp only [Draft.hasField, List.any_cons] at ih ⊢
            rw [ih, Bool.or_left_comm]
    | _ => simpa [Draft.insertSorted, Draft.hasField] using ih

/-- Sorting an object keeps its fields. -/
theorem hasField_sorted? {room : Nat} {entries : List (Draft × Draft)} {s : Draft}
    (h : (Draft.object entries true).sorted? room = some s) (name : String) :
    s.hasField name = (Draft.object entries true).hasField name := by
  -- By induction on the entries, over all that may have been sorted before them.
  have hentries : ∀ (depth : Nat) (entries before sorted : List (Draft × Draft)),
      Draft.sortedEntries? depth before entries = some sorted →
      (Draft.object sorted true).hasField name =
        ((Draft.object entries true).hasField name || (Draft.object before true).hasField name) := by
    intro depth entries
    induction entries with
    | nil =>
      intro before sorted h
      rw [Draft.sortedEntries?, Option.some.injEq] at h
      rw [h]
      rfl
    | cons e entries ih =>
      intro before sorted h
      rcases e with ⟨k, e⟩
      cases k with
      | text k =>
        cases k with
        | none => simp [Draft.sortedEntries?] at h
        | some k =>
          rw [Draft.sortedEntries?] at h
          rcases Option.bind_eq_some_iff.1 h with ⟨e', -, hrest⟩
          rw [ih _ _ hrest, hasField_insertSorted]
          simp only [Draft.hasField, List.any_cons]
          rw [Bool.or_left_comm, Bool.or_assoc]
      | _ => simp [Draft.sortedEntries?] at h
  rw [Draft.sorted?] at h
  split at h
  · cases h
  · rcases Option.map_eq_some_iff.1 h with ⟨sorted, hsorted, rfl⟩
    rw [hentries _ _ _ _ hsorted]
    exact Bool.or_false _

theorem document_of_sorted {text : String} {d s : Draft} (htext : Draft.parse text = (d, true))
    (hs : d.sorted? Draft.maxDepth = some s) : document text = .ok s := by
  rw [document, htext]
  simp only [hs]
  rfl

/-- Without a field for a graph, a text is read as a bare graph. -/
theorem authored_of_graph {text : String} {entries : List (Draft × Draft)} {a : AuthoredGraph}
    (htext : Draft.parse text = (.object entries true, true))
    (hfield : (Draft.object entries true).hasField "graph" = false)
    (hloads : Loads (recordOf .document (Shape.graph (format .document))) Draft.maxDepth
      (.object entries true) a) : AuthoredGraph.ofJson text = .ok a := by
  rcases hloads with ⟨s, hs, hread⟩
  have hsame : s.hasField "graph" = false := (hasField_sorted? hs "graph").trans hfield
  rw [AuthoredGraph.ofJson, document_of_sorted htext hs]
  simp only [bind, Except.bind, hsame]
  exact hread

/-- With one, it is read as a project. -/
theorem authored_of_project {text : String} {entries : List (Draft × Draft)} {p : Project}
    (htext : Draft.parse text = (.object entries true, true))
    (hfield : (Draft.object entries true).hasField "graph" = true)
    (hloads : Loads (recordOf .document (Shape.project (format .document))) Draft.maxDepth
      (.object entries true) p) : AuthoredGraph.ofJson text = .ok p.graph := by
  rcases hloads with ⟨s, hs, hread⟩
  have hsame : s.hasField "graph" = true := (hasField_sorted? hs "graph").trans hfield
  have hproject : (format .document).record (Shape.project (format .document))
      ⟨s, Draft.maxDepth⟩ = .ok p := hread
  rw [AuthoredGraph.ofJson, document_of_sorted htext hs]
  simp only [bind, Except.bind, hsame, if_true, hproject]
  rfl

end Json

/-! ## Saving and loading -/

/-- A graph that is saved and loaded again is as it was: its nodes are kept in their order, and its
connections are the same. So it is if its text is the graph of a project. -/
theorem Graph.ofJson_toJson (g : Graph) (supply : IdSupply)
    (hfinite : ∀ n ∈ g.nodes, n.IsFinite) (hdigits : ∀ n ∈ g.nodes, n.ReadsBack) :
    ∃ h, Graph.ofJson g.toJson supply = .ok (h, supply) ∧
      (∀ (gap : String) (before after : List (String × String)),
        (∀ c ∈ gap.toList, c ∈ Json.gapChars) →
        "graph" ∉ before.map Prod.fst → "graph" ∉ after.map Prod.fst →
        Graph.ofJson (Json.projectText gap before g.toJson after) supply = .ok (h, supply)) ∧
      List.Forall₂ Node.Kept g.nodes h.nodes ∧ h.connections = g.connections := by
  have hnamed : ∀ {text : String}, AuthoredGraph.ofJson text = .ok g.restored.authored →
      Graph.ofJson text supply = .ok (g.restored, supply) := by
    intro text htext
    rw [Graph.ofJson, htext, Except.map, Graph.named_authored]
  refine ⟨g.restored, hnamed ?_, ?_, ?_, rfl⟩
  · have hparse := parse_pretty g.toTree
    have hloads := loads_graph hfinite hdigits 122
    rw [Graph.toTree, treeDraft_record] at hparse hloads
    refine authored_of_graph hparse ?_ hloads
    simp [Draft.hasField, Draft.asEntries]
  · intro gap before after hgap hbefore hafter
    rcases loads_projectFields (loads_graph hfinite hdigits 121) hbefore hafter with
      ⟨p, hp, hloads⟩
    have hparse := parse_projectText hgap g.toTree before after
    rw [treeDraft_record] at hparse hloads
    refine hnamed ((authored_of_project hparse ?_ hloads).trans (congrArg _ hp))
    simp [Draft.hasField, Draft.asEntries, projectFields]
  · have hkept : List.Forall₂ Node.Kept (g.nodes.map id) (g.nodes.map Node.restored) :=
      forall₂_map fun n _ => n.kept_restored
    rwa [List.map_id] at hkept

/-- Ids that are empty and repeat, keys out of order, an entity, characters that have to be escaped,
and a connection to nowhere. -/
def Graph.lamp : Graph where
  nodes :=
    [{ id := ""
       kind := "lamp"
       position := ⟨.plain 0.1, .plain (-20)⟩
       data :=
         { label := "\"Lamp\"\n\t→"
           properties := (∅ : Table String Value).insert "watt" (.number (.plain 1.5))
             |>.insert "owner" (.entity "hero") |>.insert "lit" (.bool true) } },
     { id := "", kind := "" }]
  connections := [⟨"e", "", "on\\off", "nobody", ""⟩]

/-- The lamp comes back from its own text, and from that of a project around it. -/
theorem Graph.ofJson_toJson_lamp :
    ∃ h, Graph.ofJson Graph.lamp.toJson ⟨fun _ => "", 0⟩ = .ok (h, ⟨fun _ => "", 0⟩) ∧
      Graph.ofJson (Json.projectText "\n" [("name", "Lamp")] Graph.lamp.toJson [("slug", "lamp")])
        ⟨fun _ => "", 0⟩ = .ok (h, ⟨fun _ => "", 0⟩) ∧
      List.Forall₂ Node.Kept Graph.lamp.nodes h.nodes ∧
      h.connections = Graph.lamp.connections := by
  have hnumber : ∀ n ∈ Graph.lamp.nodes, ∀ key x, n.property? key = some (.number x) →
      x = .plain 1.5 := by
    have hvalues : ∀ n ∈ Graph.lamp.nodes, ∀ v ∈ n.data.properties.values,
        v.portType = .number → v = .number (.plain 1.5) := by decide
    intro n hn key x hx
    exact Value.number.inj (hvalues n hn _ (Table.mem_values_iff.2 ⟨key, hx⟩) rfl)
  have hfinite : ∀ n ∈ Graph.lamp.nodes, n.IsFinite := by
    have hplaces : ∀ n ∈ Graph.lamp.nodes, n.position.x.float32.isFinite = true ∧
        n.position.y.float32.isFinite = true := by decide
    intro n hn
    refine ⟨(hplaces n hn).1, (hplaces n hn).2, ?_⟩
    intro key x hx
    rw [hnumber n hn key x hx]
    decide
  have hdigits : ∀ n ∈ Graph.lamp.nodes, n.ReadsBack := by
    have hplaces : ∀ n ∈ Graph.lamp.nodes, Json.ReadsBack32 n.position.x ∧
        Json.ReadsBack32 n.position.y := by decide +kernel
    have hwatt : Json.ReadsBack (.plain 1.5) := by decide +kernel
    intro n hn
    refine ⟨(hplaces n hn).1, (hplaces n hn).2, ?_⟩
    intro key x hx
    rw [hnumber n hn key x hx]
    exact hwatt
  rcases Graph.ofJson_toJson Graph.lamp ⟨fun _ => "", 0⟩ hfinite hdigits with
    ⟨h, hbare, hproject, hnodes, hconnections⟩
  have hgap : ∀ c ∈ "\n".toList, c ∈ Json.gapChars := by
    intro c hc
    cases List.mem_singleton.1 hc
    decide
  exact ⟨h, hbare, hproject "\n" [("name", "Lamp")] [("slug", "lamp")] hgap (by decide)
    (by decide), hnodes, hconnections⟩

end GraphScript
