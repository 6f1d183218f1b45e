import Gtoaes.Lib.PropertyTree
import Gtoaes.Lib.Translator

/-!
The parameters of the server and the file that keeps them (`Parameter.cpp`). What is
written is the decimal text of each value; what is read is of the type of the default
that stands beside the path.
-/

namespace Gtoaes

open Lib

abbrev PTree := PropertyTree Text Text

/-- The keys of a path, which points separate. -/
def ptPath (path : String) : List Text := pieces (· == '.') path.toList

/-- The first key split off a path, where the texts are told by their characters. -/
theorem ptPath_under {full node path : String} {m l : Text} (hnode : node = String.ofList m)
    (hfree : Free (· == '.') m) (hpath : path = String.ofList l)
    (hfull : full = String.ofList (m ++ '.' :: l)) :
    ptPath full = node.toList :: ptPath path := by
  subst hnode hpath hfull
  simp only [ptPath, String.toList_ofList]
  exact pieces_append_cons hfree rfl l

/-- A node to which values are added one after the other. -/
def PTree.ofEntries (entries : List (String × Text)) : PTree :=
  .addAll [] (entries.map fun e => (ptPath e.1, e.2)) (.node [] [])

/-- They are all found in it where no path leads to another. -/
theorem PTree.get_ofEntries {entries : List (String × Text)} {path : String} {x : Text}
    (hapart : (entries.map fun e => ptPath e.1).Pairwise PropertyTree.Apart)
    (hmem : (path, x) ∈ entries) : (PTree.ofEntries entries).get (ptPath path) = some x := by
  have hfree : ∀ e ∈ entries.map fun e => (ptPath e.1, e.2),
      (PropertyTree.node [] [] : PTree).getChild e.1 = none := by
    intro e he
    obtain ⟨e, -, rfl⟩ := List.mem_map.mp he
    exact PropertyTree.getChild_leaf [] (pieces_ne_nil _)
  have hpaths : ((entries.map fun e => (ptPath e.1, e.2)).map Prod.fst).Pairwise
      PropertyTree.Apart := by
    rw [List.map_map]
    exact hapart
  exact PropertyTree.get_addAll (d := []) hfree hpaths _ (List.mem_map_of_mem hmem)

/-- `get` with a default that is an `int`. -/
def PTree.getInt (pt : PTree) (path : String) (default : CInt) : CInt :=
  ((pt.get (ptPath path)).bind wholeInt).getD default

/-- `get` with a default that is a text. -/
def PTree.getText (pt : PTree) (path : String) (default : Text) : Text :=
  (pt.get (ptPath path)).getD default

@[ext] structure Parameter where
  portClient : CInt := ⟨5010, by decide⟩
  portMountGWAC : CInt := ⟨5011, by decide⟩
  portCameraGWAC : CInt := ⟨5012, by decide⟩
  portFocusGWAC : CInt := ⟨5013, by decide⟩
  portMountGFT : CInt := ⟨5014, by decide⟩
  portCameraGFT : CInt := ⟨5015, by decide⟩
  siteName : Text := "Xinglong".toList
  siteLon : Double := .fin (mkRat 11757454 100000)
  siteLat : Double := .fin (mkRat 4039593 100000)
  siteAlt : Double := .fin 900
  deriving DecidableEq

/-- The files, and what `write_xml` and `read_xml` do to them: the one tells whether it
has not thrown, the other the tree it has read. -/
structure XmlFiles (Φ : Type) where
  writeXml : Text → PTree → Φ → Bool × Φ
  readXml : Text → Φ → Option PTree

/-- A tree that has been written is read as it was: its texts survive the trimming. -/
def XmlFiles.Returns {Φ : Type} (xml : XmlFiles Φ) (filepath : Text) (pt : PTree) : Prop :=
  ∀ fs fs', xml.writeXml filepath pt fs = (true, fs') → xml.readXml filepath fs' = some pt

namespace Parameter

def netEntries (p : Parameter) : List (String × Text) :=
  [("Client.<xmlattr>.port", intText p.portClient.1),
   ("MountGWAC.<xmlattr>.port", intText p.portMountGWAC.1),
   ("CameraGWAC.<xmlattr>.port", intText p.portCameraGWAC.1),
   ("FocusGWAC.<xmlattr>.port", intText p.portFocusGWAC.1),
   ("MountGFT.<xmlattr>.port", intText p.portMountGFT.1),
   ("CameraGFT.<xmlattr>.port", intText p.portCameraGFT.1)]

def siteEntries (p : Parameter) : List (String × Text) :=
  [("<xmlattr>.name", p.siteName),
   ("Coords.<xmlattr>.lon", p.siteLon.decimalText),
   ("Coords.<xmlattr>.lat", p.siteLat.decimalText),
   ("Coords.<xmlattr>.alt", p.siteAlt.decimalText)]

/-- The tree that `Init` and `Save` build: two nodes, to which the values are added. -/
def tree (p : Parameter) : PTree :=
  ((PropertyTree.node [] []).addChild [] ["Network".toList]
    (PTree.ofEntries p.netEntries)).addChild [] ["GeoSite".toList] (PTree.ofEntries p.siteEntries)

/-- The values that `Load` takes from a tree. -/
def ofTree (pt : PTree) : Parameter where
  portClient := pt.getInt "Network.Client.<xmlattr>.port" ⟨5010, by decide⟩
  portMountGWAC := pt.getInt "Network.MountGWAC.<xmlattr>.port" ⟨5011, by decide⟩
  portCameraGWAC := pt.getInt "Network.CameraGWAC.<xmlattr>.port" ⟨5012, by decide⟩
  portFocusGWAC := pt.getInt "Network.FocusGWAC.<xmlattr>.port" ⟨5013, by decide⟩
  portMountGFT := pt.getInt "Network.MountGFT.<xmlattr>.port" ⟨5014, by decide⟩
  portCameraGFT := pt.getInt "Network.CameraGFT.<xmlattr>.port" ⟨5015, by decide⟩
  siteName := pt.getText "GeoSite.<xmlattr>.name" []
  siteLon := .ofInt (pt.getInt "GeoSite.Coords.<xmlattr>.lon" ⟨120, by decide⟩).1
  siteLat := .ofInt (pt.getInt "GeoSite.Coords.<xmlattr>.lat" ⟨40, by decide⟩).1
  siteAlt := .ofInt (pt.getInt "GeoSite.Coords.<xmlattr>.alt" ⟨900, by decide⟩).1

section Files

variable {Φ : Type} (xml : XmlFiles Φ) (filepath : Text)

def init (p : Parameter) (fs : Φ) : Bool × Φ := xml.writeXml filepath p.tree fs

def load (fs : Φ) (p : Parameter) : Bool × Parameter :=
  match xml.readXml filepath fs with
  | some pt => (true, ofTree pt)
  | none => (false, p)

def save (p : Parameter) (fs : Φ) : Bool × Φ := xml.writeXml filepath p.tree fs

end Files

/-! ### What is read back -/

theorem get_network {p : Parameter} {path full : String} {x : Text}
    (hmem : (path, x) ∈ p.netEntries) (hfull : ptPath full = "Network".toList :: ptPath path) :
    p.tree.get (ptPath full) = some x := by
  have hapart : (p.netEntries.map fun e => ptPath e.1).Pairwise PropertyTree.Apart :=
    (by decide : List.Pairwise PropertyTree.Apart
      [ptPath "Client.<xmlattr>.port", ptPath "MountGWAC.<xmlattr>.port",
        ptPath "CameraGWAC.<xmlattr>.port", ptPath "FocusGWAC.<xmlattr>.port",
        ptPath "MountGFT.<xmlattr>.port", ptPath "CameraGFT.<xmlattr>.port"])
  apply PropertyTree.get_addChild_of_get
  rw [hfull, PropertyTree.get_addChild_singleton rfl]
  exact PTree.get_ofEntries hapart hmem

theorem get_geoSite {p : Parameter} {path full : String} {x : Text}
    (hmem : (path, x) ∈ p.siteEntries) (hfull : ptPath full = "GeoSite".toList :: ptPath path) :
    p.tree.get (ptPath full) = some x := by
  have hapart : (p.siteEntries.map fun e => ptPath e.1).Pairwise PropertyTree.Apart :=
    (by decide : List.Pairwise PropertyTree.Apart
      [ptPath "<xmlattr>.name", ptPath "Coords.<xmlattr>.lon", ptPath "Coords.<xmlattr>.lat",
        ptPath "Coords.<xmlattr>.alt"])
  rw [hfull, tree, PropertyTree.get_addChild_singleton rfl]
  exact PTree.get_ofEntries hapart hmem

theorem getInt_of_get {pt : PTree} {path : String} {x : Text} (h : pt.get (ptPath path) = some x)
    (default : CInt) : pt.getInt path default = (wholeInt x).getD default := by
  rw [PTree.getInt, h, Option.bind_some]

theorem port_back {p : Parameter} {full : String} {n : CInt} (path : String)
    (hmem : (path, intText n.1) ∈ p.netEntries)
    (hfull : ptPath full = "Network".toList :: ptPath path) (default : CInt) :
    p.tree.getInt full default = n := by
  rw [getInt_of_get (get_network hmem hfull), wholeInt_intText, Option.getD_some]

theorem name_back {p : Parameter} {full : String} {x : Text} (path : String)
    (hmem : (path, x) ∈ p.siteEntries)
    (hfull : ptPath full = "GeoSite".toList :: ptPath path) (default : Text) :
    p.tree.getText full default = x := by
  rw [PTree.getText, get_geoSite hmem hfull, Option.getD_some]

theorem coord_back {p : Parameter} {full : String} {x : Double} (path : String)
    (hmem : (path, x.decimalText) ∈ p.siteEntries)
    (hfull : ptPath full = "GeoSite".toList :: ptPath path) (default : CInt) :
    Double.ofInt (p.tree.getInt full default).1 =
      Double.ofInt ((wholeInt x.decimalText).getD default).1 := by
  rw [getInt_of_get (get_geoSite hmem hfull)]

/-- The ports and the name come back; of the position comes what its texts are as whole
numbers. -/
theorem ofTree_tree (p : Parameter) : ofTree p.tree = { p with
    siteLon := .ofInt ((wholeInt p.siteLon.decimalText).getD ⟨120, by decide⟩).1
    siteLat := .ofInt ((wholeInt p.siteLat.decimalText).getD ⟨40, by decide⟩).1
    siteAlt := .ofInt ((wholeInt p.siteAlt.decimalText).getD ⟨900, by decide⟩).1 } := by
  apply Parameter.ext <;> dsimp only [ofTree]
  · exact port_back "Client.<xmlattr>.port" (.head _)
      (ptPath_under rfl (by decide) rfl rfl) _
  · exact port_back "MountGWAC.<xmlattr>.port" (.tail _ (.head _))
      (ptPath_under rfl (by decide) rfl rfl) _
  · exact port_back "CameraGWAC.<xmlattr>.port" (.tail _ (.tail _ (.head _)))
      (ptPath_under rfl (by decide) rfl rfl) _
  · exact port_back "FocusGWAC.<xmlattr>.port" (.tail _ (.tail _ (.tail _ (.head _))))
      (ptPath_under rfl (by decide) rfl rfl) _
  · exact port_back "MountGFT.<xmlattr>.port" (.tail _ (.tail _ (.tail _ (.tail _ (.head _)))))
      (ptPath_under rfl (by decide) rfl rfl) _
  · exact port_back "CameraGFT.<xmlattr>.port"
      (.tail _ (.tail _ (.tail _ (.tail _ (.tail _ (.head _))))))
      (ptPath_under rfl (by decide) rfl rfl) _
  · exact name_back "<xmlattr>.name" (.head _) (ptPath_under rfl (by decide) rfl rfl) _
  · exact coord_back "Coords.<xmlattr>.lon" (.tail _ (.head _))
      (ptPath_under rfl (by decide) rfl rfl) _
  · exact coord_back "Coords.<xmlattr>.lat" (.tail _ (.tail _ (.head _)))
      (ptPath_under rfl (by decide) rfl rfl) _
  · exact coord_back "Coords.<xmlattr>.alt" (.tail _ (.tail _ (.tail _ (.head _))))
      (ptPath_under rfl (by decide) rfl rfl) _

/-- A position that is a whole number. -/
def IsWhole (x : Double) : Prop := ∃ n : CInt, x = .ofInt n.1

/-- An `int` that has been read is the position that has been written just where the
position is one. -/
theorem whole_back_iff (x : Double) (default : CInt) :
    .ofInt ((wholeInt x.decimalText).getD default).1 = x ↔ IsWhole x := by
  constructor
  · exact fun h => ⟨_, h.symm⟩
  · rintro ⟨n, rfl⟩
    rw [decimalText_ofInt, wholeInt_intText, Option.getD_some]

/-- What has been written is loaded as it was if and only if the position of the site is
in whole numbers. -/
theorem load_restores_iff {Φ : Type} (xml : XmlFiles Φ) (filepath : Text) (p q : Parameter)
    (fs fs' : Φ) (hxml : xml.Returns filepath p.tree)
    (hwritten : init xml filepath p fs = (true, fs') ∨ save xml filepath p fs = (true, fs')) :
    load xml filepath fs' q = (true, p) ↔
      IsWhole p.siteLon ∧ IsWhole p.siteLat ∧ IsWhole p.siteAlt := by
  have hread : xml.readXml filepath fs' = some p.tree := by
    obtain h | h := hwritten
    · exact hxml fs fs' h
    · exact hxml fs fs' h
  rw [load, hread, ← whole_back_iff p.siteLon ⟨120, by decide⟩,
    ← whole_back_iff p.siteLat ⟨40, by decide⟩, ← whole_back_iff p.siteAlt ⟨900, by decide⟩]
  simp only [ofTree_tree, Prod.mk.injEq, true_and]
  rw [Parameter.ext_iff]
  simp

/-- Files that keep the trees written to them. -/
def disk : XmlFiles (Text → Option PTree) where
  writeXml filepath pt fs := (true, Function.update fs filepath (some pt))
  readXml filepath fs := fs filepath

theorem returns_disk (filepath : Text) (pt : PTree) : disk.Returns filepath pt := by
  rintro fs _ ⟨⟩
  exact Function.update_self filepath (some pt) fs

/-- A site on whole degrees. -/
def wholeSite : Parameter := { siteLon := .ofInt 117, siteLat := .ofInt 40 }

theorem load_restores_wholeSite :
    load disk "gtoaes.xml".toList (save disk "gtoaes.xml".toList wholeSite fun _ => none).2 {} =
      (true, wholeSite) :=
  (load_restores_iff disk _ wholeSite {} (fun _ => none) _ (returns_disk _ _) (.inr rfl)).mpr
    ⟨⟨⟨117, by decide⟩, rfl⟩, ⟨⟨40, by decide⟩, rfl⟩, ⟨⟨900, by decide⟩, rfl⟩⟩

/-- The parameters of the source come back with the site moved to 120 degrees east and
40 north. -/
theorem not_load_restores : ¬ ∀ (p q : Parameter) (fs fs' : Text → Option PTree),
    save disk "gtoaes.xml".toList p fs = (true, fs') →
      load disk "gtoaes.xml".toList fs' q = (true, p) := by
  intro h
  have hread := h {} {} (fun _ => none) _ rfl
  rw [load, returns_disk "gtoaes.xml".toList (tree {}) (fun _ => none) _ rfl] at hread
  have hlon : (ofTree (tree {})).siteLon = .fin (mkRat 11757454 100000) :=
    congrArg (·.2.siteLon) hread
  rw [ofTree_tree] at hlon
  exact absurd hlon (by decide +kernel)

end Parameter

end Gtoaes
