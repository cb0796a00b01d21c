import ResolverPipeline.Template

namespace ResolverPipeline.Template

def text (s : String) : Segment := .inline (.text s)

def gap (name : String) (line : Nat) : Segment := .inline (.gap name line)

def keyedRequest (operation : String) : List Segment := [
  text ("\x7b\n" ++
    "  \"version\": \"2017-02-28\",\n" ++
    "  \"operation\": \"" ++ operation ++ "\",\n" ++
    "  \"key\": \x7b\n" ++
    "    \"pk\": $util.dynamodb.toDynamoDBJson("), gap "pk" 5,
  text ("),\n" ++
    "    \"sk\": $util.dynamodb.toDynamoDBJson("), gap "sk" 6,
  text (")\n" ++
    "  \x7d")]

def guardRequest : Template := ⟨"guard.request.vtl",
  keyedRequest "GetItem" ++ [text (",\n  \"consistentRead\": true\n\x7d")]⟩

def guardResponse : Template := ⟨"guard.response.vtl", [
  text ("#if(!$ctx.result)\n" ++
    "  $util.error(\"Unauthorized\", \"Unauthorized\")\n" ++
    "#else\n" ++
    "  $util.toJson($ctx.result)\n" ++
    "#end")]⟩

def getItemRequest : Template := ⟨"get_item.request.vtl",
  keyedRequest "GetItem" ++ [text "\n\x7d"]⟩

def queryRequest : Template := ⟨"query.request.vtl", [
  text ("\x7b\n" ++
    "  \"version\": \"2017-02-28\",\n" ++
    "  \"operation\": \"Query\",\n" ++
    "  \"query\": \x7b\n" ++
    "    \"expression\": \"pk = :pk AND begins_with(sk, :sk)\",\n" ++
    "    \"expressionValues\": \x7b\n" ++
    "      \":pk\": $util.dynamodb.toDynamoDBJson("), gap "pk" 7,
  text ("),\n" ++
    "      \":sk\": $util.dynamodb.toDynamoDBJson("), gap "sk" 8,
  text (")\n" ++
    "    \x7d\n" ++
    "  \x7d\n" ++
    "\x7d")]⟩

def putItemRequest : Template := ⟨"put_item.request.vtl",
  keyedRequest "PutItem" ++ [
    text ",\n  \"attributeValues\": $util.dynamodb.toMapValuesJson(", gap "item" 8,
    text ")\n\x7d"]⟩

def deleteItemRequest : Template := ⟨"delete_item.request.vtl",
  keyedRequest "DeleteItem" ++ [text "\n\x7d"]⟩

def stashResultResponse : Template := ⟨"stash_result.response.vtl", [
  text "$util.qr($ctx.stash.put(\"", gap "slot" 1, text "\", ", gap "value" 1, text "))\n",
  text "$util.toJson(", gap "value" 2, text ")"]⟩

def resultResponse : Template := ⟨"result.response.vtl", [
  text "$util.toJson(", gap "value" 1, text ")"]⟩

def emitRequest : Template := ⟨"emit.request.vtl", [
  text "#set($detail = \x7b\x7d)\n",
  .pairs "detail" 2 [
    .text "$util.qr($detail.put(\"", .gap "key" 3, .text "\", ", .gap "value" 3, .text "))\n"],
  text ("\x7b\n" ++
    "  \"version\": \"2018-05-29\",\n" ++
    "  \"method\": \"POST\",\n" ++
    "  \"resourcePath\": \"/\",\n" ++
    "  \"params\": \x7b\n" ++
    "    \"headers\": \x7b\n" ++
    "      \"content-type\": \"application/x-amz-json-1.1\",\n" ++
    "      \"x-amz-target\": \"AWSEvents.PutEvents\"\n" ++
    "    \x7d,\n" ++
    "    \"body\": \x7b\n" ++
    "      \"Entries\": [\n" ++
    "        \x7b\n" ++
    "          \"Source\": \""), gap "source" 17,
  text ("\",\n" ++
    "          \"EventBusName\": \""), gap "bus" 18,
  text ("\",\n" ++
    "          \"Detail\": $util.toJson($util.toJson($detail)),\n" ++
    "          \"DetailType\": \""), gap "event" 20,
  text ("\"\n" ++
    "        \x7d\n" ++
    "      ]\n" ++
    "    \x7d\n" ++
    "  \x7d\n" ++
    "\x7d")]⟩

def emitResponse : Template := ⟨"emit.response.vtl", [
  text ("#if($ctx.error)\n" ++
    "  $util.error($ctx.error.message, $ctx.error.type)\n" ++
    "#end\n" ++
    "#if($ctx.result.statusCode == 200)\n" ++
    "  $util.qr($ctx.stash.put(\"eventresult\", $util.parseJson($ctx.result.body)))\n" ++
    "  $util.toJson($ctx.stash.eventresult)\n" ++
    "#else\n" ++
    "  $util.error($ctx.result.body, \"EventBusError\", null, " ++
      "\x7b \"statusCode\": $ctx.result.statusCode \x7d)\n" ++
    "#end")]⟩

def pipelineRequest : Template := ⟨"pipeline.request.vtl", [
  text "$util.qr($ctx.stash.put(\"input\", ", gap "seed" 1, text "))\n",
  .pairs "fields" 2 [
    .text "$util.qr($ctx.stash.input.put(\"", .gap "key" 3, .text "\", ", .gap "value" 3,
    .text "))\n"],
  text "\x7b\x7d"]⟩

def pipelineResponse : Template := ⟨"pipeline.response.vtl", [
  text "#if(", gap "result" 1, text ")\n",
  text "  $util.toJson(", gap "result" 2, text ")\n",
  text "#else\n",
  text "  ", gap "fallback" 4, text "\n",
  text "#end"]⟩

def builtin : List Template := [
  guardRequest, guardResponse, getItemRequest, queryRequest, putItemRequest, deleteItemRequest,
  stashResultResponse, resultResponse, emitRequest, emitResponse, pipelineRequest,
  pipelineResponse]

def renderBuiltin (name : String) (context : Context) : Except TemplateError String :=
  match find? builtin name with
  | some t => t.render context
  | none => .error (.notFound name)

end ResolverPipeline.Template
