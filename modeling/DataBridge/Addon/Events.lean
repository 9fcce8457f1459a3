import DataBridge.Addon.Function
import DataBridge.Addon.Names

/-!
# Event handlers of an addon

The two functions that the module registers for events of its datasets and of
its datamodel.
-/

namespace DataBridge.Addon

/-- A block for each dataset, chosen by the name of the dataset at hand. -/
def datasetBranches (block : Field → Source) : List Field → Source
  | [] => []
  | first :: rest => branch "" first ++ rest.flatMap (branch "else ")
where
  branch (before : String) (dataset : Field) : Source :=
    .plain 2 (before ++ "if (0 == strcmp(dataset->name, \"" ++ dataset.name ++
      "\"))") ::
      Source.block 2 (block dataset)

def datamodelState : String :=
  "exos_get_state_string(datamodel->connection_state)"

def datasetState : String :=
  "exos_get_state_string(dataset->connection_state)"

def datasetEvent (model : Datamodel) : Function where
  comment := [.plain 0 "// exOS callbacks"]
  result := "void"
  name := "datasetEvent"
  parameters :=
    "exos_dataset_handle_t *dataset, EXOS_DATASET_EVENT_TYPE event_type, void *info"
  body :=
    .plain 1 "switch (event_type)" :: Source.block 1 (
      [.plain 1 "case EXOS_DATASET_EVENT_UPDATED:",
        .plain 2
          ("VERBOSE(\"dataset %s updated! latency (us):%i\", dataset->name, " ++
          "(exos_datamodel_get_nettime(dataset->datamodel) - dataset->nettime));")] ++
      datasetBranches
        (fun dataset =>
          callThreadsafe 3 (handleName dataset ++ ".onchange_cb")
            "&dataset->nettime")
        model.published ++
      [.plain 2 "break;",
        .blank,
        .plain 1 "case EXOS_DATASET_EVENT_PUBLISHED:",
        .plain 2 "VERBOSE(\"dataset %s published!\", dataset->name);",
        .plain 2 "// fall through",
        .blank,
        .plain 1 "case EXOS_DATASET_EVENT_DELIVERED:",
        .plain 2 (r"if (event_type == EXOS_DATASET_EVENT_DELIVERED) { " ++
          r#"VERBOSE("dataset %s delivered!", dataset->name); }"#)] ++
      datasetBranches
        (fun dataset =>
          let type := dataset.nativeType
          [.plain 3 ("//" ++ type ++ " *" ++ Text.lower dataset.name ++
              " = (" ++ type ++
            " *)dataset->data;")])
        model.subscribed ++
      [.plain 2 "break;",
        .blank,
        .plain 1 "case EXOS_DATASET_EVENT_CONNECTION_CHANGED:",
        .plain 2
          ("VERBOSE(\"dataset %s connection changed to: %s\", dataset->name, " ++
          datasetState ++ ");")] ++
      datasetBranches
        (fun dataset =>
          callThreadsafe 3 (handleName dataset ++ ".connectiononchange_cb")
            datasetState)
        model.connected ++
      [.plain 2 "break;",
        .plain 1 "default:",
        .plain 2 "break;"])

def datamodelEvent (model : Datamodel) : Function where
  result := "void"
  name := "datamodelEvent"
  parameters :=
    "exos_datamodel_handle_t *datamodel, const EXOS_DATAMODEL_EVENT_TYPE event_type, void *info"
  body :=
    .plain 1 "switch (event_type)" :: Source.block 1 (
      [.plain 1 "case EXOS_DATAMODEL_EVENT_CONNECTION_CHANGED:",
        .plain 2 ("INFO(\"application " ++ model.name ++
          " changed state to %s\", " ++
          datamodelState ++ ");")] ++
      callThreadsafe 2 (model.objectName ++ ".connectiononchange_cb")
        datamodelState ++
      [.blank,
        .plain 2 "switch (datamodel->connection_state)"] ++
      Source.block 2
        [.plain 2 "case EXOS_STATE_DISCONNECTED:",
          .plain 2 "case EXOS_STATE_CONNECTED:",
          .plain 3 "break;",
          .plain 2 "case EXOS_STATE_OPERATIONAL:",
          .plain 3 ("SUCCESS(\"" ++ model.name ++ " operational!\");"),
          .plain 3 "break;",
          .plain 2 "case EXOS_STATE_ABORTED:",
          .plain 3 ("ERROR(\"" ++ model.name ++
            " application error %d (%s) occured\", " ++
            "datamodel->error, exos_get_error_string(datamodel->error));"),
          .plain 3 "break;"] ++
      [.plain 2 "break;",
        .plain 1 "case EXOS_DATAMODEL_EVENT_SYNC_STATE_CHANGED:",
        .plain 2 "break;",
        .plain 1 "default:",
        .plain 2 "break;"])

def eventHandlers (model : Datamodel) : List Function :=
  [datasetEvent model, datamodelEvent model]

end DataBridge.Addon
