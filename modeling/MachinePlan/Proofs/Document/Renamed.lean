import MachinePlan.Document.Basic
import MachinePlan.Proofs.Value.Renamed

/-!
# Documents with other NaNs

A document that is built from a value with an end is the same whatever its NaNs are: other NaNs in
the value are other NaNs in the document, and a failure stays the same failure (`ofValue_renamed`).
-/

namespace MachinePlan

open Value

variable {f : Option Origin → Option Origin} {es : Entries} {v : Value}

theorem finite_getD (name : String) (finite : anyEntryEndless es = false) :
    (getD name es).isEndless = false := by
  rw [getD, get?]
  cases found : lookup (.str name) es with
  | none => rfl
  | some v => exact finite_of_lookup finite found

namespace Node

def renamed (f : Option Origin → Option Origin) (n : Node) : Node where
  name := n.name
  box := n.box.renamed f
  hostname := n.hostname.renamed f
  autostart := n.autostart.renamed f
  memory := n.memory.renamed f
  cpus := n.cpus.renamed f
  chipset := n.chipset.renamed f
  networks := n.networks.map (Value.renamed f)
  forwardedPorts := n.forwardedPorts.map (Value.renamed f)
  syncedFolders := n.syncedFolders.map (Value.renamed f)
  provisioners := n.provisioners.map (Value.renamed f)
  providers := renamedEntries f n.providers
  externalFunctions := n.externalFunctions.map (Value.renamed f)

theorem listAttribute_renamed (node attr : String) (finite : anyEntryEndless es = false) :
    listAttribute node (renamedEntries f es) attr =
      (listAttribute node es attr).map (List.map (Value.renamed f)) := by
  have here := finite_getD attr finite
  rw [listAttribute, listAttribute, getD_renamed]
  generalize getD attr es = v at here
  cases v with
  | ring | again => cases here
  | list items => exact congrArg Except.ok (renamedItems_eq f items)
  | _ => rfl

theorem mapAttribute_renamed (node attr : String) (finite : anyEntryEndless es = false) :
    mapAttribute node (renamedEntries f es) attr =
      (mapAttribute node es attr).map (renamedEntries f) := by
  have here := finite_getD attr finite
  rw [mapAttribute, mapAttribute, getD_renamed]
  generalize getD attr es = v at here
  cases v with
  | ring | again => cases here
  | _ => rfl

theorem ofEntries_renamed (node : String) (finite : anyEntryEndless es = false) :
    ofEntries node (renamedEntries f es) = (ofEntries node es).map (renamed f) := by
  simp only [ofEntries, listAttribute_renamed node _ finite, mapAttribute_renamed node _ finite,
    getD_renamed, bind_map, map_bind]
  rfl

theorem ofNamed_renamed (node : String) (finite : v.isEndless = false) :
    ofNamed node (v.renamed f) = (ofNamed node v).map (renamed f) := by
  cases v with
  | ring | again => cases finite
  | null => exact ofEntries_renamed node (show anyEntryEndless [] = false from rfl)
  | map es => exact ofEntries_renamed node finite
  | _ => rfl

end Node

namespace Document

def renamed (f : Option Origin → Option Origin) (d : Document) : Document where
  nodes := d.nodes.map fun named => (named.1, named.2.renamed f)
  boxes := d.boxes.renamed f
  plugins := d.plugins
  defaults := d.defaults.renamed f
  data := d.data.renamed f
  sources := d.sources

theorem putNode_renamed (name : String) (node : Node) (nodes : List (String × Node)) :
    putNode name (node.renamed f) (nodes.map fun named => (named.1, named.2.renamed f)) =
      (putNode name node nodes).map fun named => (named.1, named.2.renamed f) := by
  induction nodes with
  | nil => rfl
  | cons named nodes ih =>
    obtain ⟨other, old⟩ := named
    rw [List.map_cons, putNode, putNode, ih]
    split <;> rfl

theorem readNodes_renamed (nodes : List (String × Node)) (finite : anyEntryEndless es = false) :
    readNodes (nodes.map fun named => (named.1, named.2.renamed f)) (renamedEntries f es) =
      (readNodes nodes es).map (List.map fun named => (named.1, named.2.renamed f)) := by
  induction es generalizing nodes with
  | nil => rfl
  | cons entry es ih =>
    obtain ⟨k, v⟩ := entry
    rw [anyEntryEndless, Bool.or_eq_false_iff] at finite
    simp only [renamedEntries, readNodes, text_renamed, Node.ofNamed_renamed _ finite.1, bind_map,
      map_bind, putNode_renamed, ih _ finite.2]

/-- A section that counts as nothing is an empty mapping. -/
theorem section_renamed (f : Option Origin → Option Origin) (v : Value) :
    (v.renamed f).orElse (.map []) = (v.orElse (.map [])).renamed f :=
  orElse_renamed f v (.map [])

theorem finite_section (name : String) (finite : anyEntryEndless es = false) :
    ((getD name es).orElse (.map [])).isEndless = false := by
  rw [orElse]
  split
  · exact finite_getD name finite
  · rfl

theorem nodeEntries_renamed (finite : anyEntryEndless es = false) :
    nodeEntries (renamedEntries f es) = (nodeEntries es).map (renamedEntries f) := by
  rw [nodeEntries, nodeEntries, getD_renamed, section_renamed,
    entries?_renamed (finite_section "nodes" finite)]
  cases ((getD "nodes" es).orElse (.map [])).entries? <;> rfl

theorem finite_nodeEntries {ns : Entries} (finite : anyEntryEndless es = false)
    (found : nodeEntries es = .ok ns) : anyEntryEndless ns = false := by
  have here := finite_section "nodes" finite
  rw [nodeEntries] at found
  split at found
  case h_1 entries whole =>
    obtain rfl := Except.ok.inj found
    rw [eq_map_of_entries? here whole] at here
    exact here
  case h_2 => cases found

theorem ofValue_map_renamed (sources : List Path) (finite : anyEntryEndless es = false) :
    ofValue (.map (renamedEntries f es)) sources = (ofValue (.map es) sources).map (renamed f) := by
  change (nodeEntries (renamedEntries f es) >>= fun ns => _) =
    (nodeEntries es >>= fun ns => _).map _
  rw [nodeEntries_renamed finite, bind_map, map_bind]
  cases found : nodeEntries es with
  | error failure => rfl
  | ok ns =>
    have read := readNodes_renamed (f := f) [] (finite_nodeEntries finite found)
    have plugins := elementsOrNone_renamed (f := f) (finite_getD "plugins" finite)
    change (readNodes [] (renamedEntries f ns) >>= fun nodes => _) =
      (readNodes [] ns >>= fun nodes => _).map _
    rw [List.map_nil] at read
    simp only [read, getD_renamed, plugins, bind_map, map_bind, texts_renamed, section_renamed]
    rfl

/-- A document of a value with an end does not depend on its NaNs. -/
theorem ofValue_renamed (sources : List Path) (finite : v.isEndless = false) :
    ofValue (v.renamed f) sources = (ofValue v sources).map (renamed f) := by
  cases v with
  | map es => exact ofValue_map_renamed sources finite
  | ring | again => cases finite
  | _ => rfl

end Document

end MachinePlan
