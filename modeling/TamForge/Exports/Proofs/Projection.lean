import TamForge.Exports.Manifest
import TamForge.ProofSupport.Keys

/-!
# What the OKF projection keeps

The nodes are sorted by the identity of their artifact and the edges by all that
they are made of, so that neither order of a manifest shows.  An edge names its
artifacts by identity, as the provenance of a node does, and not by the node's id.
-/

namespace TamForge.Exports

open Models ProofSupport

variable {manifest other : ExportManifest}

theorem kindText_injective {first second : RelationKind} (h : first.text = second.text) :
    first = second := by
  cases first <;> cases second <;> first | rfl | exact absurd h (by decide)

theorem relationKey_injective {first second : ExportedRelation}
    (h : relationKey first = relationKey second) : first = second := by
  obtain ⟨hsubj, hrest⟩ := Prod.mk.inj (toLex.injective h)
  obtain ⟨hkind, hobject⟩ := Prod.mk.inj (toLex.injective hrest)
  cases first
  cases second
  cases hsubj
  cases hobject
  cases kindText_injective hkind
  rfl

theorem artifact_of_mem {artifact : ExportedArtifact} (h : artifact ∈ manifest.artifacts) :
    manifest.artifact artifact.artifactId = .ok artifact := by
  have hfind : manifest.artifacts.find? (·.artifactId = artifact.artifactId) = some artifact := by
    cases hf : manifest.artifacts.find? (·.artifactId = artifact.artifactId) with
    | none =>
      have hnone := List.find?_eq_none.mp hf artifact h
      simp at hnone
    | some found =>
      have hid : found.artifactId = artifact.artifactId := by
        simpa using List.find?_some hf
      rw [List.inj_on_of_nodup_map manifest.ids_nodup (List.mem_of_find?_eq_some hf) h hid]
  rw [ExportManifest.artifact, hfind]

def orderedNodes (manifest : ExportManifest) : List OkfNode :=
  (sortedBy ExportedArtifact.artifactId manifest.artifacts).map nodeOf

def orderedEdges (manifest : ExportManifest) : List OkfEdge :=
  (sortedBy relationKey manifest.relations).map edge

theorem project_eq (manifest : ExportManifest) :
    project manifest = .ok ⟨orderedNodes manifest, orderedEdges manifest⟩ := by
  have hnodes : (sortedBy ExportedArtifact.artifactId manifest.artifacts).mapM
      (fun artifact => node manifest artifact.artifactId) = .ok (orderedNodes manifest) := by
    rw [mapM_ok_iff, orderedNodes, List.forall₂_map_right_iff, List.forall₂_same]
    intro artifact hart
    rw [node, artifact_of_mem ((sortedBy_perm _ _).mem_iff.mp hart)]
    rfl
  exact bind_ok_iff.mpr ⟨_, hnodes, rfl⟩

theorem project_perm (harts : other.artifacts.Perm manifest.artifacts)
    (hrelations : other.relations.Perm manifest.relations) : project other = project manifest := by
  rw [project_eq, project_eq, orderedNodes, orderedNodes, orderedEdges, orderedEdges,
    sortedBy_eq_of_perm harts (List.inj_on_of_nodup_map other.ids_nodup),
    sortedBy_eq_of_perm hrelations fun _ _ _ _ => relationKey_injective]

theorem nodeId_injective {first second : ExportedArtifact}
    (h : (nodeOf first).id = (nodeOf second).id) : first.artifactId = second.artifactId := by
  have hcolon (kind : ArtifactKind) : ':' ∉ kind.text.toList := by
    cases kind <;> decide
  have htext := congrArg String.toList h
  simp only [nodeOf, String.toList_append, List.append_assoc, List.append_cancel_left_eq] at htext
  exact Keys.toString_inj (Keys.append_sep_inj (hcolon _) (hcolon _) htext).2

theorem orderedNodes_perm (manifest : ExportManifest) :
    (orderedNodes manifest).Perm (manifest.artifacts.map nodeOf) :=
  (sortedBy_perm _ _).map nodeOf

theorem orderedEdges_perm (manifest : ExportManifest) :
    (orderedEdges manifest).Perm (manifest.relations.map edge) :=
  (sortedBy_perm _ _).map edge

/-- The projection does not show the order of a manifest, has one node for each artifact with
an id of its own, and names in its edges artifacts whose nodes it has. -/
theorem projection_faithful (manifest : ExportManifest) :
    (∀ other : ExportManifest, other.artifacts.Perm manifest.artifacts →
      other.relations.Perm manifest.relations → render other = render manifest) ∧
    ∃ projection, project manifest = .ok projection ∧
      render manifest = .ok projection.toJson.canonicalPlain ∧
      (projection.nodes.map OkfNode.id).Nodup ∧
      (projection.nodes.map fun node => (node.id, node.artifactId, node.sha256, node.path)).Perm
        (manifest.artifacts.map fun artifact =>
          ((nodeOf artifact).id, artifact.artifactId, artifact.sha256, artifact.path)) ∧
      (projection.edges.map fun edge => (edge.type, edge.source, edge.target)).Perm
        (manifest.relations.map fun relation =>
          (edgeType relation.relation, relation.subjectId, relation.objectId)) ∧
      ∀ edge ∈ projection.edges, edge.source ∈ projection.nodes.map OkfNode.artifactId ∧
        edge.target ∈ projection.nodes.map OkfNode.artifactId := by
  have hnodes := orderedNodes_perm manifest
  have hedges := orderedEdges_perm manifest
  have hids : (manifest.artifacts.map fun artifact => (nodeOf artifact).id).Nodup :=
    (List.Nodup.of_map _ manifest.ids_nodup).map_on fun first hfirst second hsecond hsame =>
      List.inj_on_of_nodup_map manifest.ids_nodup hfirst hsecond (nodeId_injective hsame)
  refine ⟨fun other hartifacts hrelations => ?_, _, project_eq manifest, ?_, ?_, ?_, ?_, ?_⟩
  · rw [render, render, project_perm hartifacts hrelations]
  · rw [render, project_eq]
    rfl
  · have hperm := hnodes.map OkfNode.id
    rw [List.map_map] at hperm
    exact hperm.nodup_iff.mpr hids
  · have hperm := hnodes.map fun node => (node.id, node.artifactId, node.sha256, node.path)
    rwa [List.map_map] at hperm
  · have hperm := hedges.map fun edge => (edge.type, edge.source, edge.target)
    rwa [List.map_map] at hperm
  · intro item hitem
    obtain ⟨relation, hrelation, rfl⟩ := List.mem_map.mp (hedges.mem_iff.mp hitem)
    have hidentities : ((orderedNodes manifest).map OkfNode.artifactId).Perm
        (manifest.artifacts.map ExportedArtifact.artifactId) := by
      have hperm := hnodes.map OkfNode.artifactId
      rwa [List.map_map] at hperm
    rw [hidentities.mem_iff, hidentities.mem_iff]
    exact manifest.relations_present relation hrelation

theorem judgedId_pos : 0 < 21 := by decide

def judgedManifest : ExportManifest where
  artifacts := [
    ⟨21, .transcript, "transcripts/21.json", emptyHash, 0, judgedId_pos, by decide, by decide⟩,
    ⟨31, .analysis, "analyses/31.json", emptyHash, 0, by decide, by decide, by decide⟩]
  relations := [⟨31, .judges, 21, by decide⟩]
  artifacts_bounded := by decide
  relations_bounded := by decide
  ids_nodup := by decide
  paths_nodup := by decide
  relations_present := by decide

theorem edge_without_node_id :
    ∃ projection, project judgedManifest = .ok projection ∧
      ∃ edge ∈ projection.edges, toString edge.source ∉ projection.nodes.map OkfNode.id := by
  refine ⟨_, project_eq judgedManifest, ⟨"assesses", 31, 21⟩, ?_, ?_⟩
  · exact (orderedEdges_perm _).mem_iff.mpr (by decide)
  · intro hmem
    rw [((orderedNodes_perm _).map OkfNode.id).mem_iff] at hmem
    revert hmem
    decide

end TamForge.Exports
