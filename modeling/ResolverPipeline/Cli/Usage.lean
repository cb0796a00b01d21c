import ResolverPipeline.Cli.Arguments

namespace ResolverPipeline.Cli

def versionText : String := "rise 0.0.1-alpha.0"

def flagText : Flag → String
  | .verbose => "  -v, --verbose...  Increase log verbosity (-v debug, -vv trace)"
  | .help => "  -h, --help  Print help"
  | .version => "  -V, --version  Print version"
  | .format => "      --format <FORMAT>  Output format [default: json] [possible values: json, yaml]"
  | .output => "  -o, --output <OUTPUT>  Write to a file instead of stdout"
  | .schemaHandle => "      --schema-handle <NAME>  Schema handle name [default: api-schema]"
  | .storeHandle =>
    "      --store-handle <NAME>  Key-value store data source name [default: DynamoDataSource]"
  | .busHandle =>
    "      --bus-handle <NAME>  Event bus data source name [default: EventBridgeDataSource]"

namespace Name

def summary : Name → String
  | .root => "Rise - compile declarative GraphQL resolvers into pipeline templates"
  | .compile => "Compile a definition and print the resolver artifacts"
  | .check => "Compile a definition and report problems without printing artifacts"

def usage : Name → String
  | .root => "Usage: rise [OPTIONS] [COMMAND]"
  | .compile => "Usage: rise compile [OPTIONS] <DEFINITION>"
  | .check => "Usage: rise check [OPTIONS] <DEFINITION>"

def arguments : Name → List String
  | .root =>
    ["Commands:", "  compile  " ++ summary .compile, "  check    " ++ summary .check,
      "  help     Print this message or the help of the given command"]
  | _ => ["Arguments:", "  <DEFINITION>  Path to the definition file (JSON or YAML)"]

def help (n : Name) : String :=
  "\n".intercalate
    ([n.summary, "", n.usage, ""] ++ n.arguments ++ ["", "Options:"] ++ n.flags.map flagText)

end Name

end ResolverPipeline.Cli
