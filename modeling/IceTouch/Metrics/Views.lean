import IceTouch.Metrics.Configuration

/-!
# Metrics views

`MetricsAdminI::updateViews`. A view is its maps by their names. The walk goes over the
properties as they were at its start, while validation clears some of them.
-/

namespace IceTouch.Metrics

open Bytes ByteOrder WireTypes Escape OrderedMap
open Properties
open Proxies (dot)

def viewsPrefix : Str := text "IceMX.Metrics."

def viewPrefix (viewName : Str) : Str := viewsPrefix ++ viewName ++ [dot]

def mapsPrefix (viewName : Str) : Str := viewPrefix viewName ++ text "Map."

abbrev MetricsViewI := List (Str × MapObject)

/-- What `addOrUpdateMap` works on: the properties, the maps of the view and the number of
maps that have been created. -/
structure Site (names : PropertyNames) where
  properties : PropertiesI names
  maps : MetricsViewI
  created : Nat

section Maps

variable {names : PropertyNames} (compile : Compiler)

def mapPrefixOf (viewName mapName : Str) (properties : PropertiesI names) : Str :=
  if (properties.getPropertiesForPrefix (mapsPrefix viewName)).isEmpty then viewPrefix viewName
  else mapsPrefix viewName ++ mapName ++ [dot]

/-- The prefix of a map and its properties, unless it is not configured or disabled. -/
def wanted (viewName mapName : Str) (properties : PropertiesI names) :
    Option (Str × List (Str × Str)) :=
  let mapPrefix := mapPrefixOf viewName mapName properties
  let mapProps := properties.getPropertiesForPrefix mapPrefix
  if !(properties.getPropertiesForPrefix (mapsPrefix viewName)).isEmpty && mapProps.isEmpty then
    none
  else if 0 < getPropertyAsIntWithDefault (mapPrefix ++ text "Disabled") 0 properties then
    none
  else
    some (mapPrefix, mapProps)

/-- `MetricsViewI::addOrUpdateMap`. -/
def addOrUpdateMap (viewName mapName : Str) (factory : MetricsMapFactory) (site : Site names) :
    Bool × Site names :=
  match wanted viewName mapName site.properties with
  | none =>
      if (find mapName site.maps).isSome then
        (true, { site with maps := erase mapName site.maps })
      else
        (false, site)
  | some (mapPrefix, mapProps) =>
      if (find mapName site.maps).map (fun map => map.map.properties) = some mapProps then
        (false, site)
      else
        match factory.create compile site.created mapPrefix site.properties with
        | (.error _, left) =>
            (true, { site with properties := left, maps := erase mapName site.maps })
        | (.ok map, left) =>
            (true,
              { properties := left
                maps := assign mapName map site.maps
                created := site.created + 1 })

def updateMaps (viewName : Str) :
    List (Str × MetricsMapFactory) → Site names → List Str × Site names
  | [], site => ([], site)
  | (mapName, factory) :: rest, site =>
      let first := addOrUpdateMap compile viewName mapName factory site
      let others := updateMaps viewName rest first.2
      (if first.1 then mapName :: others.1 else others.1, others.2)

end Maps

structure MetricsAdminI (names : PropertyNames) where
  properties : PropertiesI names
  views : List (Str × MetricsViewI)
  disabledViews : List Str
  factories : List (Str × MetricsMapFactory)
  registered : Sorted factories
  created : Nat

/-- The state of `updateViews` in its walk: the views so far, and the names of the maps whose
updaters are to be called. -/
structure Walk (names : PropertyNames) where
  properties : PropertiesI names
  views : List (Str × MetricsViewI)
  disabledViews : List Str
  updatedMaps : List Str
  created : Nat

section Views

variable {names : PropertyNames} (compile : Compiler)

def viewNameOf (key : Str) : Str :=
  (key.drop viewsPrefix.length).takeWhile fun char => char ≠ dot

def isDisabled (viewName : Str) (properties : PropertiesI names) : Bool :=
  0 < getPropertyAsIntWithDefault (viewPrefix viewName ++ text "Disabled") 0 properties

def configure (admin : MetricsAdminI names) (viewName : Str) (walk : Walk names) : Walk names :=
  let properties := validateProperties (viewPrefix viewName) walk.properties
  if isDisabled viewName properties then
    { walk with properties, disabledViews := viewName :: walk.disabledViews }
  else
    let updated := updateMaps compile viewName admin.factories
      { properties, maps := (find viewName admin.views).getD [], created := walk.created }
    { walk with
      properties := updated.2.properties
      views := insert viewName updated.2.maps walk.views
      updatedMaps := walk.updatedMaps ++ updated.1
      created := updated.2.created }

def visit (admin : MetricsAdminI names) (walk : Walk names) (key : Str) : Walk names :=
  let viewName := viewNameOf key
  if (find viewName walk.views).isSome ∨ viewName ∈ walk.disabledViews then walk
  else configure compile admin viewName walk

def walked (admin : MetricsAdminI names) : Walk names :=
  ((admin.properties.getPropertiesForPrefix viewsPrefix).map Prod.fst).foldl (visit compile admin)
    { properties := admin.properties
      views := []
      disabledViews := []
      updatedMaps := []
      created := admin.created }

def removedMaps (before after : List (Str × MetricsViewI)) : List Str :=
  (before.filter fun view => (find view.1 after).isNone).flatMap fun view => keys view.2

/-- `updateViews`, with the names of the maps whose updaters are called. -/
def MetricsAdminI.updateViews (admin : MetricsAdminI names) : List Str × MetricsAdminI names :=
  let walk := walked compile admin
  (walk.updatedMaps ++ removedMaps admin.views walk.views,
    { admin with
      properties := walk.properties
      views := walk.views
      disabledViews := walk.disabledViews
      created := walk.created })

end Views

end IceTouch.Metrics
